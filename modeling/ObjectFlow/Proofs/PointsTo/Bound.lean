import ObjectFlow.Proofs.PointsTo.Invariant

/-!
# Bounds on the points-to solver

`Within x s`: the state `s` contains nothing that the outcome `x` does not, not even on its way. A
step keeps this if the outcome tracks it (`Within.step`): if it has what the step grants to its own
methods and objects (`Outcome.Tracks`). An outcome that meets all demands tracks every step, so it
bounds every state of an analysis (`History.within`), whatever it has beyond them. Therefore the
analysis finds no more than any closed findings have, and never leaves the methods, pointers and
objects of the program.
-/

namespace ObjectFlow.PointsTo

open Std

/-! ## Outcomes that track a step -/

/-- Flows carry, calls reach their callees and bind. -/
structure Outcome.Linked (p : Program) (x : Outcome) : Prop where
  along {e o} : x.flows e → x.points e.1 o → x.points e.2 o
  callee {e} : x.calls e → x.reaches e.callee
  binding {e f} : x.calls e → f ∈ bindings p e → x.flows f

/-- The outcome has what a statement contributes. -/
structure Outcome.Contributed (a : Setup) (y : Site × Instr) (x : Outcome) : Prop where
  new {v type} : allocation? y.2 = some (v, type) → x.points (.var v) (a.heap y.1 type)
  copy {e} : copyEdge? y.2 = some e → x.flows e
  static {e} : staticCall? a.program y.1 y.2 = some e → x.calls e

/-- The outcome has what the accesses and calls through `v` demand for `o`. -/
structure Outcome.Served (a : Setup) (v : VarId) (o : Obj) (x : Outcome) : Prop where
  access {e} : e ∈ accessFlows a.program v o → x.flows e
  receiverCall {e} : e ∈ receiverCalls a.program v o → x.calls e
  receiver {e this} : e ∈ receiverCalls a.program v o →
    thisVar? a.program.toDeclarations e.callee = some this → x.points (.var this) o

/-- The outcome has what its methods and objects have been granted in a state. -/
structure Outcome.Tracks (a : Setup) (t : State) (x : Outcome) : Prop extends
    x.Linked a.program where
  contributed {m y} : x.reaches m → y ∈ a.program.stmtsOf m → State.Contributed a y t →
    x.Contributed a y
  served {v o} : x.points (.var v) o → o ∈ t.flow.points (.var v) → State.Served a v o t →
    x.Served a v o

theorem Outcome.Meets.tracks {a : Setup} {entry : MethodId} {x : Outcome} (h : x.Meets a entry)
    (t : State) : x.Tracks a t where
  along := h.along
  callee := h.callee
  binding := h.binding
  contributed hm hy _ := ⟨h.new hm hy, h.copy hm hy, h.static hm hy⟩
  served hv _ _ := ⟨h.access hv, h.receiverCall hv, h.receiver hv⟩

namespace State

variable {a : Setup} {entry : MethodId} {p : Program} {x : Outcome} {s t : State}

/-- Whatever the state contains or is about to, the outcome contains. -/
structure Within (x : Outcome) (s : State) : Prop where
  reachable : ∀ m ∈ s.calls.reachable, x.reaches m
  pending : ∀ m ∈ s.pending, x.reaches m
  edges : ∀ e ∈ s.calls.edges, x.calls e
  flows : ∀ e, s.HasFlow e → x.flows e
  due : ∀ q o, s.Due q o → x.points q o

namespace Within

theorem points (h : Within x s) {q : Pointer Obj} {o : Obj} (ho : o ∈ s.flow.points q) :
    x.points q o := h.due q o (.inl ho)

theorem send (h : Within x s) {q : Pointer Obj} {objs : PointsToSet Obj}
    (ho : ∀ o ∈ objs, x.points q o) : Within x (s.send q objs) where
  reachable := h.reachable
  pending := h.pending
  edges := h.edges
  flows := h.flows
  due r o hd := by
    rcases hd with hd | ⟨objs', hd, hm⟩
    · exact h.points hd
    · rcases mem_send.1 hd with hd | hd
      · exact h.due r o (.inr ⟨objs', hd, hm⟩)
      · cases hd
        exact ho o hm

theorem reach (h : Within x s) {m : MethodId} (hm : x.reaches m) : Within x (s.reach m) := by
  unfold State.reach
  split
  · exact h
  · refine ⟨fun k hk => ?_, fun k hk => ?_, h.edges, h.flows, h.due⟩
    · rcases mem_adjoin.1 hk with hk | rfl
      · exact h.reachable k hk
      · exact hm
    · rcases List.mem_append.1 hk with hk | hk
      · exact h.pending k hk
      · exact List.mem_singleton.1 hk ▸ hm

theorem noteCall (h : Within x s) {e : CallEdge} (he : x.calls e) (hm : x.reaches e.callee) :
    Within x (s.noteCall e) := by
  have hn : Within x { s with calls := s.calls.addEdge e } :=
    ⟨h.reachable, h.pending, fun f hf => (mem_adjoin.1 hf).elim (h.edges f) (· ▸ he), h.flows,
      h.due⟩
  exact hn.reach hm

theorem land (h : Within x s) {q : Pointer Obj} {objs : PointsToSet Obj}
    (hq : ∀ o ∈ objs, x.points q o) : Within x (s.land q objs) := by
  refine ⟨h.reachable, h.pending, h.edges, h.flows, fun r o hd => ?_⟩
  rcases hd with hd | hd
  · rcases mem_points_land.1 hd with hd | ⟨rfl, hm⟩
    · exact h.points hd
    · exact hq o hm
  · exact h.due r o (.inr hd)

theorem sendAll (h : Within x s) {new : PointsToSet Obj} {l : List (Pointer Obj)}
    (hl : ∀ r ∈ l, ∀ o ∈ new, x.points r o) : Within x (s.sendAll new l) :=
  List.foldlRecOn (motive := Within x) _ _ h fun _ k r hr => k.send (hl r hr)

theorem poll (h : Within x s) {e : Pointer Obj × PointsToSet Obj} {rest}
    (ht : s.traffic.entries = e :: rest) : Within x { s with traffic := ⟨rest⟩ } :=
  ⟨h.reachable, h.pending, h.edges, h.flows, fun r o hd => h.due r o <|
    hd.imp_right fun ⟨objs', hr, hm⟩ => ⟨objs', ht ▸ List.mem_cons_of_mem _ hr, hm⟩⟩

section
variable (hx : x.Linked p)
include hx

theorem addFlow (h : Within x s) {e : FlowEdge} (he : x.flows e) : Within x (s.addFlow e) := by
  have hlink : Within x (s.link e) := by
    refine ⟨h.reachable, h.pending, h.edges, fun f hf => ?_, h.due⟩
    rcases hasFlow_link.1 hf with rfl | hf
    · exact he
    · exact h.flows f hf
  rcases addFlow_cases s e with ⟨-, hs⟩ | ⟨-, -, hs⟩ | ⟨-, hs⟩
  · rwa [hs]
  · rwa [hs]
  · rw [hs]
    exact hlink.send fun o ho => hx.along he (h.points ho)

theorem addFlows (h : Within x s) {l : List FlowEdge} (hl : ∀ e ∈ l, x.flows e) :
    Within x (l.foldl State.addFlow s) :=
  List.foldlRecOn (motive := Within x) l State.addFlow h fun _ h e he => h.addFlow hx (hl e he)

theorem addCall (h : Within x s) {e : CallEdge} (he : x.calls e) : Within x (s.addCall p e) := by
  by_cases hs : e ∈ s.calls.edges
  · rwa [addCall_of_mem hs]
  · rw [addCall_eq hs]
    exact (h.noteCall he (hx.callee he)).addFlows hx fun f hf => hx.binding he hf

theorem addReceiverCall (h : Within x s) {o : Obj} {e : CallEdge} (he : x.calls e)
    (hthis : ∀ this, thisVar? p.toDeclarations e.callee = some this → x.points (.var this) o) :
    Within x (s.addReceiverCall p o e) := by
  unfold State.addReceiverCall
  dsimp only
  split
  · rename_i this ht
    refine (h.send fun o' ho => ?_).addCall hx he
    obtain rfl : o = o' := by simpa using ho
    exact hthis this ht
  · exact h.addCall hx he

end

section
variable (hx : x.Linked a.program)
include hx

theorem addStmt (h : Within x s) {y : Site × Instr} (hy : x.Contributed a y) :
    Within x (s.addStmt a y.1 y.2) := by
  rw [addStmt_eq]
  refine List.foldlRecOn (motive := Within x) _ _ ?_ fun _ h e he =>
    h.addCall hx (hy.static (Option.mem_toList.1 he))
  refine List.foldlRecOn (motive := Within x) _ _ ?_ fun _ h e he =>
    h.addFlow hx (hy.copy (Option.mem_toList.1 he))
  refine List.foldlRecOn (motive := Within x) _ _ h fun _ h z hz => h.send fun o ho => ?_
  obtain rfl : a.heap y.1 z.2 = o := by simpa using ho
  exact hy.new (Option.mem_toList.1 hz)

theorem addMethod (h : Within x s) {m : MethodId}
    (hm : ∀ y ∈ a.program.stmtsOf m, x.Contributed a y) : Within x (s.addMethod a m) :=
  List.foldlRecOn (motive := Within x) _ _ h fun _ h y hy => h.addStmt hx (hm y hy)

theorem addObject (h : Within x s) {v : VarId} {o : Obj} (hs : x.Served a v o) :
    Within x (s.addObject a v o) :=
  List.foldlRecOn (motive := Within x) _ _ (h.addFlows hx fun _ he => hs.access he)
    fun _ h _ he => h.addReceiverCall hx (hs.receiverCall he) fun _ => hs.receiver he

theorem serveAll (h : Within x s) {q : Pointer Obj} {l : List Obj}
    (hl : ∀ v, q = .var v → ∀ o ∈ l, x.Served a v o) : Within x (s.serveAll a q l) := by
  unfold State.serveAll
  split
  · exact List.foldlRecOn (motive := Within x) _ _ h fun _ h o ho =>
      h.addObject hx (hl _ rfl o ho)
  · exact h

/-- An arrival that serves only successors and new objects stays within the outcome. -/
theorem arriveIn (h : Within x s) {q : Pointer Obj} {objs : PointsToSet Obj}
    {succs : List (Pointer Obj)} {news : List Obj} (hsuccs : ∀ r ∈ succs, s.HasFlow (q, r))
    (hnews : ∀ o ∈ news, o ∈ objs \ s.flow.points q) (hq : ∀ o ∈ objs, x.points q o)
    (hn : ∀ v, q = .var v → ∀ o ∈ objs \ s.flow.points q, x.Served a v o) :
    Within x (s.arriveIn a q objs succs news) := by
  unfold State.arriveIn
  dsimp only
  split
  · exact h
  split
  · exact h.land hq
  · refine ((h.land hq).sendAll fun r hr o hm => ?_).serveAll hx fun v hv o ho =>
      hn v hv o (hnews o ho)
    exact hx.along (h.flows _ (hsuccs r hr)) (hq o (ExtTreeSet.mem_diff_iff.1 hm).1)

end

theorem advances (hx : x.Tracks a t) (h : Within x s) (hs : Advances a s t) : Within x t := by
  cases hs with
  | @turn m rest hp =>
    have hm := h.pending m (hp ▸ List.mem_cons_self)
    have hrest : Within x { s with pending := rest } := ⟨h.reachable,
      fun k hk => h.pending k (hp ▸ List.mem_cons_of_mem _ hk), h.edges, h.flows, h.due⟩
    exact hrest.addMethod hx.toLinked fun y hy => hx.contributed hm hy (contributed_addMethod hy)
  | @arrival q objs rest succs news hp ht hsuccs hnews =>
    have hq : ∀ o ∈ objs, x.points q o :=
      fun o hm => h.due q o (.inr ⟨objs, ht ▸ List.mem_cons_self, hm⟩)
    refine (h.poll ht).arriveIn hx.toLinked (fun _ => (mem_of_perm_succs hsuccs).1)
      (fun _ => (mem_of_perm_toList hnews).1) hq ?_
    rintro v rfl o hn
    have hserved := served_arriveIn (a := a) (s := { s with traffic := ⟨rest⟩ })
      (fun _ => (mem_of_perm_toList hnews).2) hn succs
    exact hx.served (hq o (ExtTreeSet.mem_diff_iff.1 hn).1) hserved.1 hserved.2

/-- A step does not leave an outcome that has what the step grants to its methods and objects. -/
theorem step (hx : x.Tracks a t) (ho : ∀ q l, (a.order q l).Perm l) (h : Within x s)
    (hs : PointsTo.step a s = some t) : Within x t :=
  h.advances hx (advances_of_step ho hs)

end Within

theorem within_start (hx : x.reaches entry) : Within x (start entry) where
  reachable m hm := List.mem_singleton.1 hm ▸ hx
  pending m hm := List.mem_singleton.1 hm ▸ hx
  edges e he := by cases he
  flows e he := absurd he not_hasFlow_start
  due q o hd := by
    rcases hd with hd | ⟨objs, hd, ho⟩
    · exact absurd hd not_mem_points_start
    · cases hd

end State

end ObjectFlow.PointsTo
