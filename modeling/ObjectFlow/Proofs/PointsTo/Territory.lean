import ObjectFlow.Proofs.CallGraph.Reachability
import ObjectFlow.Proofs.PointsTo.History
import ObjectFlow.Proofs.Program.Ownership

/-!
# The territory of a call graph

The `territory` of a call graph consists of the methods that its calls lead to from an entry, of
their variables, and of the objects that they make. If statements mention only variables of their
own methods, the analysis leaves a territory only by a call that the graph lacks
(`territory_tracks`). So every state lies in the territory of its own call graph
(`History.within_territory`): all that it contains, or that travels in it, belongs to its reachable
methods, and to reach these its calls suffice (`histories_confined`). All objects were made in
turns, and are served in the order in which they were (`History.serves_by_number`).
-/

namespace ObjectFlow.PointsTo

open Std State

/-- A variable lies where its method does, everything else lies everywhere. -/
def Pointer.LiesIn (p : Program) (inside : MethodId → Prop) : Pointer Obj → Prop
  | .var v => ∃ m, p.owner? v = some m ∧ inside m
  | .static _ | .field _ _ | .element _ => True

/-- One of the methods allocates the object. -/
def Obj.MadeIn (a : Setup) (inside : MethodId → Prop) (o : Obj) : Prop :=
  ∃ site v type, (site, .assign v (.new type)) ∈ a.program.stmtsOf site.method ∧
    inside site.method ∧ o = a.heap site type

/-- The methods that calls of the graph lead to from an entry, with their variables and objects. -/
def Setup.territory (a : Setup) (g : CallGraph) (entry : MethodId) : Outcome where
  reaches := g.Leads entry
  calls e := e ∈ g.edges ∧ g.Leads entry e.caller
  points q o := q.LiesIn a.program (g.Leads entry) ∧ o.MadeIn a (g.Leads entry)
  flows e := e.1.LiesIn a.program (g.Leads entry) ∧ e.2.LiesIn a.program (g.Leads entry)

variable {a : Setup} {p : Program} {g : CallGraph} {entry : MethodId} {l : List Move}
  {s t : State} {inside inside' : MethodId → Prop}

theorem Pointer.LiesIn.mono {q : Pointer Obj} (h : q.LiesIn p inside)
    (hi : ∀ m, inside m → inside' m) : q.LiesIn p inside' := by
  cases q with
  | var v =>
    obtain ⟨m, hm, hin⟩ := h
    exact ⟨m, hm, hi m hin⟩
  | _ => trivial

theorem Obj.MadeIn.mono {o : Obj} (h : o.MadeIn a inside) (hi : ∀ m, inside m → inside' m) :
    o.MadeIn a inside' := by
  obtain ⟨site, v, type, hs, hin, ho⟩ := h
  exact ⟨site, v, type, hs, hi _ hin, ho⟩

/-- Where every site makes its own object, the site of an object lies in the methods. -/
theorem Obj.MadeIn.site {o : Obj} (h : o.MadeIn a inside) (hheap : a.heap = HeapModel.bySite) :
    inside o.site.method := by
  obtain ⟨site, v, type, -, hin, rfl⟩ := h
  rwa [hheap]

/-! ## Statements stay in their methods -/

section
variable (hp : p.Valid) (hown : p.OwnVars)
include hp hown

theorem liesIn_of_mem {site : Site} {i : Instr} {v : VarId} (hi : p.instrAt? site = some i)
    (hv : v ∈ i.uses ++ i.def?.toList) (hin : inside site.method) :
    (Pointer.var v).LiesIn p inside :=
  ⟨site.method, hown.owner hp.wellFormed hi hv, hin⟩

/-- A base lies where the statements are whose base it is. -/
theorem inside_of_usesAs {site : Site} {v : VarId} {use : BaseUse} (hs : site ∈ p.usesAs v use)
    (hv : (Pointer.var v).LiesIn p inside) : inside site.method := by
  obtain ⟨i, hi, hu⟩ := hp.mem_usesAs.1 hs
  obtain ⟨m, hm, hin⟩ := hv
  have howner := hown.owner hp.wellFormed hi
    (List.mem_append_left _ (Program.mem_uses_of_baseUse? hu))
  rw [hm, Option.some.injEq] at howner
  exact howner ▸ hin

theorem copyEdge_liesIn {site : Site} {i : Instr} {e : FlowEdge} (hi : p.instrAt? site = some i)
    (hin : inside site.method) (he : copyEdge? i = some e) :
    e.1.LiesIn p inside ∧ e.2.LiesIn p inside := by
  have hvar : ∀ v ∈ i.uses ++ i.def?.toList, (Pointer.var v).LiesIn p inside :=
    fun v hv => liesIn_of_mem hp hown hi hv hin
  unfold copyEdge? at he
  split at he <;> cases he
  · exact ⟨hvar _ (by simp [Instr.uses, Exp.uses]), hvar _ (by simp [Instr.def?])⟩
  · exact ⟨hvar _ (by simp [Instr.uses, Exp.uses]), hvar _ (by simp [Instr.def?])⟩
  · exact ⟨trivial, hvar _ (by simp [Instr.def?])⟩
  · exact ⟨hvar _ (by simp [Instr.uses]), trivial⟩

theorem accessFlow_liesIn {v : VarId} {o : Obj} {e : FlowEdge}
    (hv : (Pointer.var v).LiesIn p inside) (he : e ∈ accessFlows p v o) :
    e.1.LiesIn p inside ∧ e.2.LiesIn p inside := by
  obtain ⟨site, hs, i, hi, he⟩ := mem_accessFlows.1 he
  have hin : inside site.method := by
    rcases mem_accessSites.1 hs with hs | hs | hs | hs <;>
      exact inside_of_usesAs hp hown hs hv
  have hvar : ∀ w ∈ i.uses ++ i.def?.toList, (Pointer.var w).LiesIn p inside :=
    fun w hw => liesIn_of_mem hp hown hi hw hin
  unfold accessEdge? at he
  split at he <;> cases he
  · exact ⟨trivial, hvar _ (by simp [Instr.def?])⟩
  · exact ⟨hvar _ (by simp [Instr.uses]), trivial⟩
  · exact ⟨trivial, hvar _ (by simp [Instr.def?])⟩
  · exact ⟨hvar _ (by simp [Instr.uses]), trivial⟩

theorem caller_of_receiverCalls {v : VarId} {o : Obj} {e : CallEdge}
    (hv : (Pointer.var v).LiesIn p inside) (he : e ∈ receiverCalls p v o) : inside e.caller := by
  obtain ⟨site, hs, result, call, callee, -, -, rfl⟩ := mem_receiverCalls.1 he
  exact inside_of_usesAs hp hown hs hv

/-- A call binds variables of its caller and of its callee. -/
theorem binding_liesIn (hbodies : p.OwnBodies) {e : CallEdge} {f : FlowEdge}
    (hcaller : inside e.caller) (hcallee : inside e.callee) (hf : f ∈ bindings p e) :
    f.1.LiesIn p inside ∧ f.2.LiesIn p inside := by
  obtain ⟨result, call, b, hi, hb, hf⟩ := mem_bindings.1 hf
  have hvar : ∀ v ∈ (Instr.invoke result call).uses ++ (Instr.invoke result call).def?.toList,
      (Pointer.var v).LiesIn p inside := fun v hv => liesIn_of_mem hp hown hi hv hcaller
  rcases mem_bindingEdges.1 hf with ⟨n, arg, param, harg, hparam, rfl⟩ | ⟨w, rfl, v, hv, rfl⟩
  · have harg := List.mem_of_getElem? harg
    have hparam := List.mem_of_getElem? hparam
    exact ⟨hvar arg (by simp [Instr.uses, harg]),
      e.callee, hbodies e.callee b param hb (by simp [hparam]), hcallee⟩
  · obtain ⟨st, hst, hret⟩ := Program.mem_returnVars.1 hv
    have hmem : (⟨e.callee, st.index⟩, st.instr) ∈ p.stmtsOf e.callee :=
      Declarations.mem_stmtsOf.2 ⟨b, st, hb, hst, rfl, rfl⟩
    exact ⟨liesIn_of_mem hp hown (hp.wellFormed.instrAt? hmem) (by simp [hret, Instr.uses]) hcallee,
      hvar w (by simp [Instr.def?])⟩

end

/-! ## Steps stay in the territory -/

/-- The territory of a graph has what a step grants to its methods and objects, if the graph has the
calls among it. -/
theorem territory_tracks (hp : a.program.Valid) (hown : a.program.OwnVars)
    (hbodies : a.program.OwnBodies)
    (hstatic : ∀ y e, y ∈ a.program.stmtsOf y.1.method → g.Leads entry y.1.method →
      Contributed a y t → staticCall? a.program y.1 y.2 = some e → e ∈ g.edges)
    (hreceiver : ∀ v o e, o ∈ t.flow.points (.var v) → Served a v o t →
      e ∈ receiverCalls a.program v o → g.Leads entry e.caller → e ∈ g.edges) :
    (a.territory g entry).Tracks a t where
  along he ho := ⟨he.2, ho.2⟩
  callee he := he.2.call he.1
  binding he hf := binding_liesIn hp hown hbodies he.2 (he.2.call he.1) hf
  contributed {m y} hm hy hcon := by
    obtain rfl : y.1.method = m := Declarations.site_method hy
    have hi := hp.wellFormed.instrAt? hy
    constructor
    case new =>
      intro v type hnew
      obtain ⟨site, i⟩ := y
      obtain rfl := allocation?_iff.1 hnew
      exact ⟨liesIn_of_mem hp hown hi (by simp [Instr.def?]) hm, site, v, type, hy, hm, rfl⟩
    case copy => exact fun hcopy => copyEdge_liesIn hp hown hi hm hcopy
    case static =>
      intro e he
      refine ⟨hstatic y e hy hm hcon he, ?_⟩
      obtain ⟨result, call, callee, -, -, -, rfl⟩ := staticCall?_iff.1 he
      exact hm
  served {v o} hv ho hserved := by
    have hcaller : ∀ e ∈ receiverCalls a.program v o, g.Leads entry e.caller :=
      fun e he => caller_of_receiverCalls hp hown hv.1 he
    have hcall : ∀ e ∈ receiverCalls a.program v o, e ∈ g.edges :=
      fun e he => hreceiver v o e ho hserved he (hcaller e he)
    constructor
    case access => exact fun he => accessFlow_liesIn hp hown hv.1 he
    case receiverCall => exact fun {e} he => ⟨hcall e he, hcaller e he⟩
    case receiver =>
      intro e this he hthis
      obtain ⟨b, hb, hb'⟩ := thisVar?_iff.1 hthis
      have howner := hbodies e.callee b this hb (by simp [hb'])
      exact ⟨⟨e.callee, howner, (hcaller e he).call (hcall e he)⟩, hv.2⟩

theorem State.Within.territory_mono {g' : CallGraph} (h : Within (a.territory g entry) s)
    (hg : ∀ e ∈ g.edges, e ∈ g'.edges) : Within (a.territory g' entry) s := by
  have hleads : ∀ m, g.Leads entry m → g'.Leads entry m := fun m hm => hm.mono hg
  refine ⟨fun m hm => hleads m (h.reachable m hm), fun m hm => hleads m (h.pending m hm),
    fun e he => ?_, fun e he => ?_, fun q o hq => ?_⟩
  · obtain ⟨hedge, hcaller⟩ := h.edges e he
    exact ⟨hg e hedge, hleads _ hcaller⟩
  · obtain ⟨hsource, htarget⟩ := h.flows e he
    exact ⟨hsource.mono hleads, htarget.mono hleads⟩
  · obtain ⟨hlies, hmade⟩ := h.due q o hq
    exact ⟨hlies.mono hleads, hmade.mono hleads⟩

/-- Every state lies in the territory of its own call graph. -/
theorem History.within_territory (h : History a entry l s) (hp : a.program.Valid)
    (hown : a.program.OwnVars) (hbodies : a.program.OwnBodies)
    (ho : ∀ q l, (a.order q l).Perm l) : Within (a.territory s.calls entry) s := by
  induction h with
  | init => exact within_start .refl
  | @step l s move t _ _ hs ih =>
    obtain ⟨u, hcalls, -, hext⟩ := step_extends hs
    have hgrow : ∀ e ∈ s.calls.edges, e ∈ t.calls.edges := fun e he =>
      hext.edges e (hcalls ▸ he)
    refine (ih.territory_mono hgrow).step (territory_tracks hp hown hbodies ?_ ?_) ho hs
    · exact fun y e _ _ hcon he => hcon.static e he
    · exact fun v o e _ hserved he _ => (hserved.receiverCall e he).1

/-! ## Reachable methods own all that there is -/

/-- The objects of some methods are those that they allocate. -/
theorem madeIn_of_mem_heapOf {methods : List MethodId} {o : Obj}
    (h : o ∈ (heapOf a methods).objs) : o.MadeIn a (· ∈ methods) := by
  revert o
  refine List.foldlRecOn (motive := fun heap : Heap => ∀ {o : Obj}, o ∈ heap.objs →
    o.MadeIn a (· ∈ methods)) _ _ (fun ho => absurd ho List.not_mem_nil) ?_
  rintro heap ih ⟨site, i⟩ hy o ho
  obtain ⟨m, hm, hs⟩ := List.mem_flatMap.1 hy
  obtain rfl := Declarations.site_method hs
  dsimp only at ho
  split at ho
  · rename_i v type hi
    obtain rfl := allocation?_iff.1 hi
    unfold Heap.alloc at ho
    split at ho
    · exact ih ho
    · rcases List.mem_append.1 ho with ho | ho
      · exact ih ho
      · exact ⟨site, v, type, hs, hm, List.mem_singleton.1 ho⟩
  · exact ih ho

/-! ## Numbers of objects -/

/-- All that can be found of objects that some methods make. -/
def Setup.madeBy (a : Setup) (methods : List MethodId) : Outcome where
  reaches _ := True
  calls _ := True
  points _ o := o.MadeIn a (· ∈ methods)
  flows _ := True

theorem madeBy_linked (methods : List MethodId) : (a.madeBy methods).Linked a.program where
  along _ ho := ho
  callee _ := trivial
  binding _ _ := trivial

/-- What has arrived or travels was made in a turn. -/
theorem History.within_madeBy (h : History a entry l s) (ho : ∀ q l, (a.order q l).Perm l) :
    Within (a.madeBy (turns l)) s := by
  induction h with
  | init => exact within_start trivial
  | @step l s move t h hmove hs ih =>
    rw [turns_concat hmove]
    cases advances_of_step ho hs with
    | @turn m rest hpend =>
      have hturns : turns l ++ s.pending.head?.toList = turns l ++ [m] := by simp [hpend]
      rw [hturns]
      have hgrown : Within (a.madeBy (turns l ++ [m])) { s with pending := rest } :=
        ⟨fun _ _ => trivial, fun _ _ => trivial, fun _ _ => trivial, fun _ _ => trivial,
          fun q o hd => (ih.due q o hd).mono fun _ => List.mem_append_left _⟩
      refine hgrown.addMethod (madeBy_linked _) fun y hy => ⟨fun {v type} hnew => ?_,
        fun _ => trivial, fun _ => trivial⟩
      obtain ⟨site, i⟩ := y
      obtain rfl := allocation?_iff.1 hnew
      obtain rfl := Declarations.site_method hy
      exact ⟨site, v, type, hy, List.mem_append_right _ (List.mem_singleton_self _), rfl⟩
    | @arrival q objs rest succs news hpend ht hsuccs hnews =>
      have hturns : turns l ++ s.pending.head?.toList = turns l := by simp [hpend]
      rw [hturns]
      have hq : ∀ o ∈ objs, o.MadeIn a (· ∈ turns l) :=
        fun o hm => ih.due q o (.inr ⟨objs, ht ▸ List.mem_cons_self, hm⟩)
      exact (ih.poll ht).arriveIn (madeBy_linked _) (fun _ => (mem_of_perm_succs hsuccs).1)
        (fun _ => (mem_of_perm_toList hnews).1) hq fun v hv o hn =>
          ⟨fun _ => trivial, fun _ => trivial, fun _ _ => hq o (ExtTreeSet.mem_diff_iff.1 hn).1⟩

/-- With one object for each site, sites tell objects apart. -/
theorem Obj.MadeIn.eq_of_site {o o' : Obj} (h : o.MadeIn a inside) (h' : o'.MadeIn a inside)
    (hw : a.program.WellFormed) (hheap : a.heap = HeapModel.bySite) (he : o.site = o'.site) :
    o = o' := by
  obtain ⟨site, v, type, hs, -, rfl⟩ := h
  obtain ⟨site', v', type', hs', -, rfl⟩ := h'
  rw [hheap] at he ⊢
  obtain rfl : site = site' := he
  have hi := (hw.instrAt? hs).symm.trans (hw.instrAt? hs')
  cases hi
  rfl

/-- With one object for each site, an arrival serves the new objects in the order in which turns
have made them. -/
theorem History.serves_by_number (h : History a entry l s) (ho : ∀ q l, (a.order q l).Perm l)
    (hw : a.program.WellFormed) (hheap : a.heap = HeapModel.bySite) {q : Pointer Obj}
    {objs : PointsToSet Obj} {rest} (hpend : s.pending = [])
    (ht : s.traffic.entries = (q, objs) :: rest) :
    ((heapOf a s.calls.reachable).inOrder (objs \ s.flow.points q)).Sublist
      (heapOf a (turns l)).objs := by
  have hturns : s.calls.reachable = turns l := by
    rw [← h.turns_append_pending.1, hpend, List.append_nil]
  rw [hturns]
  refine Heap.inOrder_sublist fun o hm => ?_
  have hmade : o.MadeIn a (· ∈ turns l) := (h.within_madeBy ho).due q o
    (.inr ⟨objs, ht ▸ List.mem_cons_self, (ExtTreeSet.mem_diff_iff.1 hm).1⟩)
  obtain ⟨site, v, type, hs, hin, rfl⟩ := hmade
  obtain ⟨o', ho', he⟩ := exists_site_heapOf hin hs rfl
  exact (madeIn_of_mem_heapOf ho').eq_of_site ⟨site, v, type, hs, hin, rfl⟩ hw hheap he ▸ ho'

/-! ## What reachable methods own -/

/-- Calls, variables with objects, and objects belong to reachable methods. With one object for each
site, that of every object is in a reachable method (`Obj.MadeIn.site`). -/
structure Confined (a : Setup) (l : List Move) (s : State) : Prop where
  caller : ∀ e ∈ s.calls.edges, e.caller ∈ s.calls.reachable
  callee : ∀ e ∈ s.calls.edges, e.callee ∈ s.calls.reachable
  /-- What has arrived at a variable or travels to it. -/
  vars : ∀ v o, s.Due (.var v) o → ∃ m, a.program.owner? v = some m ∧ m ∈ s.calls.reachable
  /-- What has been made, has arrived or travels. -/
  objects : ∀ o, o ∈ (heapOf a (turns l)).objs ∨ (∃ q, s.Due q o) →
    o.MadeIn a (· ∈ s.calls.reachable)

theorem History.mem_reachable_iff (h : History a entry l s) (hp : a.program.Valid)
    (hown : a.program.OwnVars) (hbodies : a.program.OwnBodies)
    (ho : ∀ q l, (a.order q l).Perm l) {m : MethodId} :
    m ∈ s.calls.reachable ↔ s.calls.Leads entry m := by
  have hinv := h.invariant ho
  constructor
  · exact (h.within_territory hp hown hbodies ho).reachable m
  · intro hm
    exact hm.closed (p := (· ∈ s.calls.reachable)) hinv.entry fun e he _ => hinv.reached e he

/-- In every state of an analysis the reachable methods own all that there is. In the end they are
those that a search of the call graph lists. -/
theorem histories_confined {d : Declarations} (hd : d.Built) (hb : d.build = .ok a.program)
    (hown : a.program.OwnVars) (he : a.program.HasMethod entry)
    (ho : ∀ q l, (a.order q l).Perm l) :
    (∀ l s, History a entry l s → Confined a l s) ∧
      ∃ r, analyze a entry = some r ∧
        ∀ m, m ∈ r.calls.reachable ↔ m ∈ r.calls.reachableFrom entry := by
  have hp := Program.valid_of_build hd hb
  have hbodies := Declarations.ownBodies_of_build hd hb
  constructor
  · intro l s h
    have hin := fun m => (h.mem_reachable_iff hp hown hbodies ho (m := m)).2
    have hw := h.within_territory hp hown hbodies ho
    refine ⟨fun e he => hin _ (hw.edges e he).2, (h.invariant ho).reached, fun v o hv => ?_,
      fun o hmade => ?_⟩
    · exact (hw.due _ o hv).1.mono hin
    · rcases hmade with hmade | ⟨q, hq⟩
      · refine (madeIn_of_mem_heapOf hmade).mono fun m hm => ?_
        rw [← h.turns_append_pending.1]
        exact List.mem_append_left _ hm
      · exact (hw.due q o hq).2.mono hin
  · obtain ⟨r, hr⟩ := exists_analyze hp he ho
    obtain ⟨l, s, hl, -, rfl⟩ := history_of_analyze hr
    refine ⟨_, hr, fun m => ?_⟩
    have hroot : entry ∈ s.calls.methods := List.mem_append_left _ (hl.invariant ho).entry
    rw [CallGraph.mem_reachableFrom hroot]
    exact hl.mem_reachable_iff hp hown hbodies ho

/-- A call on a receiver: whatever is due at `this` was made in a reachable method, and the method
of `this` is reachable. -/
theorem histories_confined_receiver : ∃ (d : Declarations) (p : Program), d.Built ∧
    d.build = .ok p ∧ p.OwnVars ∧ ∃ r, analyze { program := p } ⟨0⟩ = some r ∧
      (∀ m, m ∈ r.calls.reachable ↔ m ∈ r.calls.reachableFrom ⟨0⟩) ∧
      ∀ l s, History { program := p } ⟨0⟩ l s → ∀ o, s.Due (.var ⟨0⟩) o →
        o.site.method ∈ s.calls.reachable ∧ ⟨1⟩ ∈ s.calls.reachable := by
  have h1 := Declarations.Built.empty.addClass "A" none [] (by simp) (by simp)
    (Declarations.addClass_first "A")
  have h2 := h1.addMethod ⟨0⟩ "main" [] .void true (by decide) (by decide) rfl
  have h3 := h2.addMethod ⟨0⟩ "m" [] .void false (by decide) (by decide) rfl
  have h4 := h3.addVar ⟨0⟩ "x" (.cls ⟨0⟩) (by decide) (by decide) rfl
  have h5 := h4.addStmt ⟨0⟩ (.assign ⟨1⟩ (.new (.cls ⟨0⟩))) (by decide) (by decide) rfl
  have h6 := h5.addStmt ⟨0⟩ (.invoke none ⟨.virtual, ⟨⟨0⟩, ⟨"void m()"⟩⟩, some ⟨1⟩, []⟩)
    (by decide) (by decide) rfl
  obtain ⟨hall, r, hr, hreach⟩ := histories_confined (a := { program := _ }) h6 rfl
    (show Declarations.OwnVars _ by decide) (show Declarations.HasMethod _ ⟨0⟩ by decide)
    fun _ l => .refl l
  refine ⟨_, _, h6, rfl, by decide, r, hr, hreach, fun l s h o ho => ⟨?_, ?_⟩⟩
  · exact ((hall l s h).objects o (.inr ⟨_, ho⟩)).site rfl
  · obtain ⟨m, hm, hin⟩ := (hall l s h).vars ⟨0⟩ o ho
    obtain rfl : ⟨1⟩ = m := Option.some.inj (Eq.trans rfl hm)
    exact hin

end ObjectFlow.PointsTo
