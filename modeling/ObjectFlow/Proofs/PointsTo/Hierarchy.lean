import ObjectFlow.Proofs.CallGraph.FromHierarchy
import ObjectFlow.Proofs.PointsTo.Territory

/-!
# The analysis within the class hierarchy

The class hierarchy gives a call graph of its own. If the receivers of virtual and interface calls
have classes below the declared ones (`Result.WellTyped`), all calls that the analysis finds are
among the possible ones, so that it does not leave the territory of that graph
(`calls_of_hierarchy`).
-/

namespace ObjectFlow.PointsTo

open Std State

/-- Objects on which virtual and interface calls dispatch are of classes below the declared one. -/
def Result.WellTyped (p : Program) (r : Result) : Prop :=
  ∀ y ∈ p.allStmts, ∀ call ∈ y.2.invoke?, call.kind = .virtual ∨ call.kind = .interface →
    ∀ base ∈ call.base, ∀ o ∈ (r.points (.var base)).toList, ∀ c ∈ p.classOfType? o.type,
      c ∈ p.subtypes call.target.cls

instance (p : Program) (r : Result) : Decidable (r.WellTyped p) :=
  inferInstanceAs (Decidable (∀ y ∈ p.allStmts, ∀ call ∈ y.2.invoke?,
    call.kind = .virtual ∨ call.kind = .interface → ∀ base ∈ call.base,
      ∀ o ∈ (r.points (.var base)).toList, ∀ c ∈ p.classOfType? o.type,
        c ∈ p.subtypes call.target.cls))

variable {a : Setup} {p : Program} {entry : MethodId} {l : List Move} {s : State} {r : Result}

/-- Static calls are possible calls. -/
theorem staticCall_possible (hp : p.Valid) {y : Site × Instr} {e : CallEdge}
    (hy : y ∈ p.stmtsOf y.1.method) (he : staticCall? p y.1 y.2 = some e) :
    e ∈ p.callEdges y.1.method := by
  obtain ⟨result, call, callee, hinstr, hkind, hcallee, rfl⟩ := staticCall?_iff.1 he
  refine hp.mem_callEdges.2 ⟨rfl, call, ?_, hkind.symm, ?_⟩
  · exact callAt?_iff.2 ⟨result, hinstr ▸ hp.wellFormed.instrAt? hy⟩
  · refine Program.mem_targets.2 (.inl ⟨.inl hkind, ?_⟩)
    simpa only [Program.calleeOn?, hkind] using hcallee

/-- So are calls on the objects that the result knows. -/
theorem Result.WellTyped.receiverCall_possible (h : r.WellTyped p) (hp : p.Valid) {v : VarId}
    {o : Obj} {e : CallEdge} (ho : o ∈ r.points (.var v)) (he : e ∈ receiverCalls p v o) :
    e ∈ p.callEdges e.caller := by
  obtain ⟨site, hs, result, call, callee, hi, hcallee, rfl⟩ := mem_receiverCalls.1 he
  have hcall : p.callAt? site = some call := callAt?_iff.2 ⟨result, hi⟩
  have hbase : call.base = some v := by
    obtain ⟨i, hi', hu⟩ := hp.mem_usesAs.1 hs
    rw [hi, Option.some.injEq] at hi'
    subst hi'
    simpa [Instr.baseUse?] using hu
  refine hp.mem_callEdges.2 ⟨rfl, call, hcall, rfl, ?_⟩
  refine Program.mem_targets_of_calleeOn? hcallee fun hkind c hc => ?_
  have hy := Declarations.mem_allStmts.2 (hp.wellFormed.instrAt?_iff.1 hi)
  exact h _ hy call rfl hkind v hbase o (ExtTreeSet.mem_toList.2 ho) c hc

/-- The analysis does not leave the territory of the graph that the hierarchy gives. -/
theorem History.within_hierarchy (h : History a entry l s) (hp : a.program.Valid)
    (hown : a.program.OwnVars) (hbodies : a.program.OwnBodies)
    (ho : ∀ q l, (a.order q l).Perm l) (hr : analyze a entry = some r)
    (htyped : r.WellTyped a.program) :
    Within (a.territory (a.program.callGraph entry) entry) s := by
  obtain ⟨_, u, hu, hend, rfl⟩ := history_of_analyze hr
  have hmeets := (hu.invariant ho).meets hend
  have hpossible : ∀ e, e ∈ a.program.callEdges e.caller →
      (a.program.callGraph entry).Leads entry e.caller → e ∈ (a.program.callGraph entry).edges :=
    fun e hposs hcaller => hp.mem_edges_callGraph.2 ⟨hp.leads_callGraph.1 hcaller, hposs⟩
  refine h.within_of_tracks .refl (fun k t ht => ?_) ho
  refine territory_tracks hp hown hbodies ?_ ?_
  · intro y e hy hm _ hstatic
    have hposs := staticCall_possible hp hy hstatic
    obtain ⟨hcaller, -⟩ := hp.mem_callEdges.1 hposs
    exact hpossible e (hcaller ▸ hposs) (hcaller ▸ hm)
  · intro v o e hpoints _ hcall hcaller
    -- what the result knows of `v` includes what any state does
    have hknown := (ht.within hmeets ho).points hpoints
    exact hpossible e (htyped.receiverCall_possible hp hknown hcall) hcaller

/-- On well-typed results the call graph of the analysis is part of that of the hierarchy. -/
theorem calls_of_hierarchy {d : Declarations} (hd : d.Built) (hb : d.build = .ok a.program)
    (hown : a.program.OwnVars) (he : a.program.HasMethod entry)
    (ho : ∀ q l, (a.order q l).Perm l) :
    ∃ r, analyze a entry = some r ∧ (r.WellTyped a.program →
      (∀ m ∈ r.calls.reachable, m ∈ (a.program.callGraph entry).reachable) ∧
        ∀ e ∈ r.calls.edges, e ∈ (a.program.callGraph entry).edges) := by
  have hp := Program.valid_of_build hd hb
  obtain ⟨r, hr⟩ := exists_analyze hp he ho
  refine ⟨r, hr, fun htyped => ?_⟩
  obtain ⟨l, s, hl, -, hrs⟩ := history_of_analyze hr
  have hw := hl.within_hierarchy hp hown (Declarations.ownBodies_of_build hd hb) ho hr htyped
  rw [hrs]
  exact ⟨fun m hm => hp.leads_callGraph.1 (hw.reachable m hm), fun e he => (hw.edges e he).1⟩

/-- Of the two methods that a call may have in the hierarchy, the analysis finds that of the class
that the receiver has. -/
theorem calls_of_hierarchy_override : ∃ (d : Declarations) (p : Program) (r : Result), d.Built ∧
    d.build = .ok p ∧ p.OwnVars ∧ analyze { program := p } ⟨0⟩ = some r ∧
      (∀ m ∈ r.calls.reachable, m ∈ (p.callGraph ⟨0⟩).reachable) ∧
      (∀ e ∈ r.calls.edges, e ∈ (p.callGraph ⟨0⟩).edges) ∧
      r.calls.reachable = [⟨0⟩, ⟨2⟩] ∧ (p.callGraph ⟨0⟩).reachable = [⟨0⟩, ⟨1⟩, ⟨2⟩] := by
  have h1 := Declarations.Built.empty.addClass "A" none [] (by simp) (by simp)
    (Declarations.addClass_first "A")
  have h2 := h1.addClass "B" (some ⟨0⟩) [] (by decide) (by simp)
    (Declarations.addClass_fresh _ _ (by simp))
  have h3 := h2.addMethod ⟨0⟩ "main" [] .void true (by decide) (by decide) rfl
  have h4 := h3.addMethod ⟨0⟩ "m" [] .void false (by decide) (by decide) rfl
  have h5 := h4.addMethod ⟨1⟩ "m" [] .void false (by decide) (by decide) rfl
  have h6 := h5.addVar ⟨0⟩ "x" (.cls ⟨0⟩) (by decide) (by decide) rfl
  have h7 := h6.addStmt ⟨0⟩ (.assign ⟨2⟩ (.new (.cls ⟨1⟩))) (by decide) (by decide) rfl
  have h8 := h7.addStmt ⟨0⟩ (.invoke none ⟨.virtual, ⟨⟨0⟩, ⟨"void m()"⟩⟩, some ⟨2⟩, []⟩)
    (by decide) (by decide) rfl
  obtain ⟨r, hr, hpart⟩ := calls_of_hierarchy (a := { program := _ }) h8 rfl
    (show Declarations.OwnVars _ by decide) (show Declarations.HasMethod _ ⟨0⟩ by decide)
    fun _ l => .refl l
  obtain ⟨hmethods, hedges⟩ := hpart ((by decide +kernel :
    ∀ r ∈ analyze { program := _ } ⟨0⟩, Result.WellTyped _ r) r hr)
  refine ⟨_, _, r, h8, rfl, by decide, hr, hmethods, hedges, ?_, by decide +kernel⟩
  exact (by decide +kernel : ∀ r ∈ analyze { program := _ } ⟨0⟩, r.calls.reachable = _) r hr

end ObjectFlow.PointsTo
