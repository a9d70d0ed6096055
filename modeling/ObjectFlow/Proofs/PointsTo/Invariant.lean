import ObjectFlow.Proofs.PointsTo.Growth
import ObjectFlow.Proofs.PointsTo.Numbering

/-!
# The invariant of the points-to solver

`Invariant a entry s`: whatever the contents of `s` demand is there or due, except the statements of
pending methods. It holds at the start (`invariant_start`) and is kept by every step
(`Invariant.step`), in whatever order an arrival does its work (`Invariant.advances`). When nothing
is pending and nothing travels, what is due has arrived, and the contents of the state meet all
demands (`Invariant.meets`).

The delicate part is `Linked.carried`: what has arrived at the source of a flow is due at its
target. It breaks when objects arrive (`land`) and is mended by sending what is new to all
successors (`carried_sendAll`), before anything else looks at the new objects.
-/

namespace ObjectFlow.PointsTo.State

open Std

variable {a : Setup} {entry : MethodId} {p : Program} {s t u : State}

/-- What is at the source of a flow is due at its target. -/
def Carried (s : State) : Prop := ∀ e, s.HasFlow e → ∀ o ∈ s.flow.points e.1, s.Due e.2 o

/-- Flows carry what they should, calls reach their callees and bind what they should. -/
structure Linked (p : Program) (s : State) : Prop where
  carried : s.Carried
  reached : ∀ e ∈ s.calls.edges, e.callee ∈ s.calls.reachable
  bound : ∀ e ∈ s.calls.edges, ∀ f ∈ bindings p e, s.HasFlow f

/-! ## Operations keep the links -/

/-- What does not touch flows or arrived objects keeps the flows carried. -/
theorem Carried.of_extends (h : s.Carried) (k : Extends s t)
    (hf : ∀ e, t.HasFlow e → s.HasFlow e) : t.Carried := fun e he o ho =>
  k.due (h e (hf e he) o (k.mem_points.1 ho))

theorem Carried.addFlow (h : s.Carried) (e : FlowEdge) : (s.addFlow e).Carried := by
  have k := extends_addFlow s e
  intro f hf o hp
  have ho : o ∈ s.flow.points f.1 := k.mem_points.1 hp
  by_cases hs : s.HasFlow f
  · exact k.due (h f hs o ho)
  · obtain rfl := (hasFlow_addFlow.1 hf).resolve_right hs
    exact due_addFlow hs ho

theorem flow_reach (s : State) (m : MethodId) : (s.reach m).flow = s.flow := by
  unfold reach
  split <;> rfl

theorem calls_addFlow (s : State) (e : FlowEdge) : (s.addFlow e).calls = s.calls := by
  rcases addFlow_cases s e with ⟨-, h⟩ | ⟨-, -, h⟩ | ⟨-, h⟩ <;> rw [h] <;> rfl

theorem calls_addFlows (l : List FlowEdge) (s : State) : (l.foldl addFlow s).calls = s.calls :=
  List.foldlRecOn (motive := fun t => t.calls = s.calls) l addFlow rfl
    fun t h e _ => (calls_addFlow t e).trans h

theorem Linked.send (h : s.Linked p) (q : Pointer Obj) (objs : PointsToSet Obj) :
    (s.send q objs).Linked p where
  carried := h.carried.of_extends (extends_send s q objs) fun _ he => he
  reached := h.reached
  bound := h.bound

theorem Linked.addFlow (h : s.Linked p) (e : FlowEdge) : (s.addFlow e).Linked p where
  carried := h.carried.addFlow e
  reached f hf := by
    rw [calls_addFlow] at hf ⊢
    exact h.reached f hf
  bound f hf g hg := by
    rw [calls_addFlow] at hf
    exact (extends_addFlow s e).flows g (h.bound f hf g hg)

theorem Linked.addFlows (h : s.Linked p) (l : List FlowEdge) : (l.foldl State.addFlow s).Linked p :=
  List.foldlRecOn (motive := (Linked p ·)) l State.addFlow h fun _ h e _ => h.addFlow e

theorem Linked.addCall (h : s.Linked p) (e : CallEdge) : (s.addCall p e).Linked p := by
  by_cases he : e ∈ s.calls.edges
  · rwa [addCall_of_mem he]
  rw [addCall_eq he]
  have hflow : (s.noteCall e).flow = s.flow := flow_reach _ _
  have hnoted : (s.noteCall e).Carried :=
    h.carried.of_extends (extends_noteCall s e) fun f hf => by
      unfold HasFlow at hf ⊢
      rwa [hflow] at hf
  have hgrow := Extends.foldl extends_addFlow (bindings p e) (s.noteCall e)
  refine ⟨List.foldlRecOn (motive := Carried) _ _ hnoted fun _ h f _ => h.addFlow f,
    fun f hf => ?_, fun f hf g hg => ?_⟩
  · rw [calls_addFlows] at hf ⊢
    rcases mem_noteCall.1 hf with hf | rfl
    · exact (extends_noteCall s e).reachable _ (h.reached f hf)
    · exact mem_reach
  · rw [calls_addFlows] at hf
    rcases mem_noteCall.1 hf with hf | rfl
    · exact hgrow.flows g ((extends_noteCall s e).flows g (h.bound f hf g hg))
    · exact Extends.foldl_establishes (P := fun e s => s.HasFlow e) extends_addFlow
        (fun e _ _ k h => k.flows e h) (fun _ _ => hasFlow_addFlow.2 (.inl rfl)) hg _

theorem Linked.addReceiverCall (h : s.Linked p) (o : Obj) (e : CallEdge) :
    (s.addReceiverCall p o e).Linked p := by
  unfold State.addReceiverCall
  dsimp only
  split
  · exact (h.send _ _).addCall e
  · exact h.addCall e

theorem Linked.addStmt (h : s.Linked a.program) (x : Site × Instr) :
    (s.addStmt a x.1 x.2).Linked a.program := by
  rw [addStmt_eq]
  refine List.foldlRecOn (motive := (Linked a.program ·)) _ _ ?_ fun _ h e _ => h.addCall e
  refine List.foldlRecOn (motive := (Linked a.program ·)) _ _ ?_ fun _ h e _ => h.addFlow e
  exact List.foldlRecOn (motive := (Linked a.program ·)) _ _ h fun _ h y _ => h.send _ _

theorem Linked.addMethod (h : s.Linked a.program) (m : MethodId) :
    (s.addMethod a m).Linked a.program :=
  List.foldlRecOn (motive := (Linked a.program ·)) _ _ h fun _ h x _ => h.addStmt x

theorem Linked.addObject (h : s.Linked a.program) (v : VarId) (o : Obj) :
    (s.addObject a v o).Linked a.program :=
  List.foldlRecOn (motive := (Linked a.program ·)) _ _ (h.addFlows _)
    fun _ h e _ => h.addReceiverCall o e

/-! ## Arrivals -/

/-- Objects have reached a pointer, and nothing has followed from it yet. -/
def land (s : State) (q : Pointer Obj) (objs : PointsToSet Obj) : State :=
  { s with flow := (s.flow.addPoints q objs).2 }

/-- What is new at a pointer is sent to some pointers, one after the other. -/
def sendAll (s : State) (new : PointsToSet Obj) (l : List (Pointer Obj)) : State :=
  l.foldl (·.send · new) s

/-- Objects are served one after the other if the pointer that they are at is a variable. -/
def serveAll (a : Setup) (s : State) (q : Pointer Obj) (l : List Obj) : State :=
  match q with
  | .var v => l.foldl (·.addObject a v ·) s
  | _ => s

/-- Objects arrive at a pointer; the order of its successors and that of the new objects are
given. -/
def arriveIn (a : Setup) (s : State) (q : Pointer Obj) (objs : PointsToSet Obj)
    (succs : List (Pointer Obj)) (news : List Obj) : State :=
  let new := objs \ s.flow.points q
  if objs.isEmpty then s
  else if new.isEmpty then s.land q objs
  else ((s.land q objs).sendAll new succs).serveAll a q news

/-- Successors are served in the order of the setup, and objects in that of their numbers. -/
theorem arrive_eq_arriveIn (q : Pointer Obj) (objs : PointsToSet Obj) : s.arrive a q objs =
    s.arriveIn a q objs (a.order q (s.flow.graph.succs q).toList)
      ((heapOf a s.calls.reachable).inOrder (objs \ s.flow.points q)) := by
  cases q <;> rfl

theorem mem_points_land {q r : Pointer Obj} {objs : PointsToSet Obj} {o : Obj} :
    o ∈ (s.land q objs).flow.points r ↔ o ∈ s.flow.points r ∨ r = q ∧ o ∈ objs := by
  simp only [land, PointerFlow.addPoints, PointsToSet.addAll, PointerFlow.points]
  rw [ExtTreeMap.getD_insert]
  by_cases hq : q = r
  · subst hq
    simp [ExtTreeSet.mem_union_iff]
  · simp [hq, eq_comm (a := r)]

/-- What was due before the oldest entry was taken is due when it has landed. -/
theorem due_land {q r : Pointer Obj} {objs : PointsToSet Obj} {rest} {o : Obj}
    (ht : s.traffic.entries = (q, objs) :: rest) (h : s.Due r o) :
    ({ s with traffic := ⟨rest⟩ }.land q objs).Due r o := by
  rcases h with h | ⟨objs', hr, ho⟩
  · exact .inl (mem_points_land.2 (.inl h))
  · rw [ht] at hr
    rcases List.mem_cons.1 hr with hr | hr
    · obtain ⟨rfl, rfl⟩ := Prod.mk.injEq .. ▸ hr
      exact .inl (mem_points_land.2 (.inr ⟨rfl, ho⟩))
    · exact .inr ⟨objs', hr, ho⟩

/-- An entry without objects can be dropped. -/
theorem keeps_of_empty {q : Pointer Obj} {rest} (ht : s.traffic.entries = (q, ∅) :: rest) :
    Keeps s { s with traffic := ⟨rest⟩ } := by
  refine ⟨fun _ h => h, fun _ h => h, fun r o h => ?_⟩
  rcases due_land ht h with hp | h
  · rcases mem_points_land.1 hp with hp | ⟨-, hm⟩
    · exact .inl hp
    · simp at hm
  · exact .inr h

theorem extends_sendAll (s : State) (new : PointsToSet Obj) (l : List (Pointer Obj)) :
    Extends s (s.sendAll new l) := .foldl (fun s r => extends_send s r new) _ _

theorem flow_sendAll (s : State) (new : PointsToSet Obj) (l : List (Pointer Obj)) :
    (s.sendAll new l).flow = s.flow :=
  List.foldlRecOn (motive := fun t : State => t.flow = s.flow) _ _ rfl fun _ h _ _ => h

theorem calls_sendAll (s : State) (new : PointsToSet Obj) (l : List (Pointer Obj)) :
    (s.sendAll new l).calls = s.calls :=
  List.foldlRecOn (motive := fun t : State => t.calls = s.calls) _ _ rfl fun _ h _ _ => h

theorem extends_serveAll (s : State) (q : Pointer Obj) (l : List Obj) :
    Extends s (s.serveAll a q l) := by
  unfold serveAll
  split
  · exact .foldl (fun s o => extends_addObject s _ o) _ _
  · exact .refl s

theorem Linked.serveAll (h : s.Linked a.program) (q : Pointer Obj) (l : List Obj) :
    (s.serveAll a q l).Linked a.program := by
  unfold State.serveAll
  split
  · exact List.foldlRecOn (motive := (Linked a.program ·)) _ _ h fun _ h o _ => h.addObject _ o
  · exact h

theorem served_serveAll {v : VarId} {l : List Obj} {o : Obj} (ho : o ∈ l) :
    Served a v o (s.serveAll a (.var v) l) :=
  Extends.foldl_establishes (P := fun o s => Served a v o s) (fun s o => extends_addObject s v o)
    (fun _ _ _ k h => h.mono k.keeps) (fun _ _ => served_addObject) ho _

/-- Nothing arrives, or the state extends the one in which the objects have just landed. -/
theorem arriveIn_cases (s : State) (q : Pointer Obj) (objs : PointsToSet Obj)
    (succs : List (Pointer Obj)) (news : List Obj) :
    (objs = ∅ ∧ s.arriveIn a q objs succs news = s) ∨
      Extends (s.land q objs) (s.arriveIn a q objs succs news) := by
  unfold arriveIn
  dsimp only
  split
  · exact .inl ⟨ExtTreeSet.isEmpty_iff.1 ‹_›, rfl⟩
  split
  · exact .inr (.refl _)
  · exact .inr ((extends_sendAll _ _ _).trans (extends_serveAll _ _ _))

/-- An object that is new at a variable is there after its arrival, and has been served. -/
theorem served_arriveIn {v : VarId} {objs : PointsToSet Obj} {news : List Obj} {o : Obj}
    (hnews : ∀ o ∈ objs \ s.flow.points (.var v), o ∈ news)
    (ho : o ∈ objs \ s.flow.points (.var v)) (succs : List (Pointer Obj)) :
    o ∈ (s.arriveIn a (.var v) objs succs news).flow.points (.var v) ∧
      Served a v o (s.arriveIn a (.var v) objs succs news) := by
  have hmem := (ExtTreeSet.mem_diff_iff.1 ho).1
  constructor
  · rcases arriveIn_cases (a := a) s (.var v) objs succs news with ⟨rfl, -⟩ | k
    · simp at hmem
    · exact k.mem_points.2 (mem_points_land.2 (.inr ⟨rfl, hmem⟩))
  · unfold arriveIn
    dsimp only
    split
    · rename_i he
      simp [ExtTreeSet.isEmpty_iff.1 he] at hmem
    split
    · rename_i hn
      rw [ExtTreeSet.isEmpty_iff.1 hn] at ho
      simp at ho
    · exact served_serveAll (hnews o ho)

/-- Sending what is new at a pointer to all its successors carries it. -/
theorem carried_sendAll {q : Pointer Obj} {new : PointsToSet Obj} {l : List (Pointer Obj)}
    (hl : ∀ r, s.HasFlow (q, r) → r ∈ l)
    (h : ∀ e, s.HasFlow e → ∀ o ∈ s.flow.points e.1, (e.1 = q ∧ o ∈ new) ∨ s.Due e.2 o) :
    (s.sendAll new l).Carried := by
  intro e hf o hp
  have he : s.HasFlow e := by
    unfold HasFlow at hf ⊢
    rwa [flow_sendAll] at hf
  rcases h e he o ((extends_sendAll s new l).mem_points.1 hp) with ⟨rfl, hn⟩ | h
  · exact Extends.foldl_establishes (P := fun r s => s.Due r o) (fun s r => extends_send s r new)
      (fun _ _ _ k h => k.due h) (fun _ _ => due_send hn) (hl e.2 he) s
  · exact (extends_sendAll s new l).due h

/-- An arrival extends a state that has the same calls and the same pending methods. -/
theorem extends_arrive (s : State) (q : Pointer Obj) (objs : PointsToSet Obj) :
    ∃ u : State, u.calls = s.calls ∧ u.pending = s.pending ∧ Extends u (s.arrive a q objs) := by
  rw [arrive_eq_arriveIn]
  rcases arriveIn_cases (a := a) s q objs (a.order _ _) _ with ⟨-, h⟩ | h
  · exact ⟨s, rfl, rfl, by rw [h]; exact .refl s⟩
  · exact ⟨s.land q objs, rfl, rfl, h⟩

/-- A step extends a state that has the same calls, and in which the first pending method waits no
longer. -/
theorem step_extends (h : step a s = some t) :
    ∃ u : State, u.calls = s.calls ∧ u.pending = s.pending.tail ∧ Extends u t := by
  rcases step_cases h with ⟨m, rest, hp, rfl⟩ | ⟨q, objs, rest, hp, -, rfl⟩
  · exact ⟨{ s with pending := rest }, rfl, by rw [hp, List.tail_cons], extends_addMethod _ _⟩
  · obtain ⟨u, hc, hu, hext⟩ := extends_arrive (a := a) { s with traffic := ⟨rest⟩ } q objs
    exact ⟨u, hc, by rw [hu, hp, List.tail_nil], hext⟩

/-- What a step may do if it is left open in which order an arrival serves the successors of its
pointer, and in which the new objects. -/
inductive Advances (a : Setup) (s : State) : State → Prop
  | turn {m : MethodId} {rest : List MethodId} : s.pending = m :: rest →
      Advances a s ({ s with pending := rest }.addMethod a m)
  | arrival {q : Pointer Obj} {objs : PointsToSet Obj} {rest} {succs : List (Pointer Obj)}
      {news : List Obj} : s.pending = [] → s.traffic.entries = (q, objs) :: rest →
      succs.Perm (s.flow.graph.succs q).toList → news.Perm (objs \ s.flow.points q).toList →
      Advances a s ({ s with traffic := ⟨rest⟩ }.arriveIn a q objs succs news)

theorem advances_of_step (ho : ∀ q l, (a.order q l).Perm l) (h : step a s = some t) :
    Advances a s t := by
  rcases step_cases h with ⟨m, rest, hp, rfl⟩ | ⟨q, objs, rest, hp, ht, rfl⟩
  · exact .turn hp
  · rw [arrive_eq_arriveIn]
    exact .arrival hp ht (ho _ _) ((distinct_heapOf a _).perm_inOrder _)

theorem mem_of_perm_succs {q : Pointer Obj} {l : List (Pointer Obj)}
    (h : l.Perm (s.flow.graph.succs q).toList) {r : Pointer Obj} : r ∈ l ↔ s.HasFlow (q, r) := by
  rw [h.mem_iff, ExtTreeSet.mem_toList, HasFlow, Digraph.hasEdge_iff_mem_succs]

theorem mem_of_perm_toList {objs : PointsToSet Obj} {l : List Obj} (h : l.Perm objs.toList)
    {o : Obj} : o ∈ l ↔ o ∈ objs := by
  rw [h.mem_iff, ExtTreeSet.mem_toList]

/-! ## The invariant -/

/-- What the contents of the state demand is there or due, except for pending methods. -/
structure Invariant (a : Setup) (entry : MethodId) (s : State) : Prop extends
    Linked a.program s where
  entry : entry ∈ s.calls.reachable
  contributed : ∀ m ∈ s.calls.reachable, m ∈ s.pending ∨
    ∀ x ∈ a.program.stmtsOf m, Contributed a x s
  served : ∀ v, ∀ o ∈ s.flow.points (.var v), Served a v o s

theorem start_eq (entry : MethodId) :
    start entry = { calls := ⟨[entry], [entry], []⟩, pending := [entry] } := rfl

theorem not_mem_points_start {q : Pointer Obj} {o : Obj} :
    o ∉ (start entry).flow.points q := fun h => by
  rw [start_eq, PointerFlow.points, show (∅ : PointerFlow Obj).sets = ∅ from rfl] at h
  simp at h

theorem not_hasFlow_start {e : FlowEdge} : ¬ (start entry).HasFlow e := fun h => by
  rw [start_eq, HasFlow, Digraph.hasEdge_iff_mem_succs, Digraph.succs,
    show (∅ : PointerFlow Obj).graph.edges = ∅ from rfl] at h
  simp at h

theorem invariant_start : Invariant a entry (start entry) where
  carried e he := absurd he not_hasFlow_start
  reached e he := by cases he
  bound e he := by cases he
  entry := mem_reach
  contributed m hm := .inl hm
  served v o ho := absurd ho not_mem_points_start

/-- An operation that finds nothing new and loses nothing keeps the invariant. -/
theorem Invariant.of_keeps (h : Invariant a entry s) (k : Keeps s t) (hc : t.calls = s.calls)
    (hp : t.pending = s.pending) (hf : ∀ e, t.HasFlow e → s.HasFlow e)
    (ho : ∀ q o, o ∈ t.flow.points q → o ∈ s.flow.points q) : Invariant a entry t where
  carried e he o hs := k.due _ _ (h.carried e (hf e he) o (ho _ _ hs))
  reached := hc ▸ h.reached
  bound e he f hf := k.flows f (h.bound e (hc ▸ he) f hf)
  entry := hc ▸ h.entry
  contributed m hm := by
    rw [hp]
    exact (h.contributed m (hc ▸ hm)).imp_right fun h x hx => (h x hx).mono k
  served v o hs := (h.served v o (ho _ _ hs)).mono k

theorem Invariant.addMethod {m : MethodId} {rest : List MethodId} (h : Invariant a entry s)
    (hp : s.pending = m :: rest) :
    Invariant a entry ({ s with pending := rest }.addMethod a m) := by
  have k := extends_addMethod (a := a) { s with pending := rest } m
  have hk : Keeps s (State.addMethod { s with pending := rest } a m) :=
    ⟨k.edges, k.flows, fun _ _ => k.due⟩
  have hl : Linked a.program { s with pending := rest } := ⟨h.carried, h.reached, h.bound⟩
  refine ⟨hl.addMethod m, k.reachable _ h.entry,
    fun n hn => ?_, fun v o ho => (h.served v o (k.mem_points.1 ho)).mono hk⟩
  rcases k.fresh n hn with hn | hn
  · rcases h.contributed n hn with hn | hc
    · rw [hp] at hn
      rcases List.mem_cons.1 hn with rfl | hn
      · exact .inr fun x hx => contributed_addMethod hx
      · exact .inl (k.pending n hn)
    · exact .inr fun x hx => (hc x hx).mono hk
  · exact .inl hn

/-- After new objects have landed at a pointer, sending them on and serving them restores it. -/
theorem Invariant.propagate {q : Pointer Obj} {new : PointsToSet Obj} {succs : List (Pointer Obj)}
    {news : List Obj} (h : Invariant a entry s) (k : Keeps s u) (hc : u.calls = s.calls)
    (hp : u.pending = s.pending) (hf : ∀ e, u.HasFlow e → s.HasFlow e)
    (hu : ∀ r o, o ∈ u.flow.points r → o ∈ s.flow.points r ∨ r = q ∧ o ∈ new)
    (hsuccs : ∀ r, u.HasFlow (q, r) → r ∈ succs) (hnews : ∀ o ∈ new, o ∈ news) :
    Invariant a entry ((u.sendAll new succs).serveAll a q news) := by
  have hsend := extends_sendAll u new succs
  have hserve := extends_serveAll (a := a) (u.sendAll new succs) q news
  have hk := k.trans (hsend.trans hserve).keeps
  have hflow : ∀ e, (u.sendAll new succs).HasFlow e ↔ u.HasFlow e := fun e => by
    unfold HasFlow
    rw [flow_sendAll]
  have hl : (u.sendAll new succs).Linked a.program := by
    refine ⟨carried_sendAll hsuccs fun e he o hs => ?_, ?_, fun e he f hb => ?_⟩
    · rcases hu _ o hs with hs | hs
      · exact .inr (k.due _ _ (h.carried e (hf e he) o hs))
      · exact .inl hs
    · rw [calls_sendAll, hc]
      exact h.reached
    · rw [calls_sendAll, hc] at he
      exact (hflow f).2 (k.flows f (h.bound e he f hb))
  refine ⟨hl.serveAll q news, (hsend.trans hserve).reachable _ (hc ▸ h.entry), fun m hm => ?_,
    fun v o hs => ?_⟩
  · rcases (hsend.trans hserve).fresh m hm with hm | hm
    · rcases h.contributed m (hc ▸ hm) with hm | hs
      · exact .inl ((hsend.trans hserve).pending m (hp ▸ hm))
      · exact .inr fun x hx => (hs x hx).mono hk
    · exact .inl hm
  · rcases hu _ o ((hsend.trans hserve).mem_points.1 hs) with hs | ⟨rfl, hn⟩
    · exact (h.served v o hs).mono hk
    · exact served_serveAll (hnews o hn)

/-- Taking an entry off the traffic loses nothing once the entry has landed, in whatever orders its
arrival serves successors and new objects. -/
theorem Invariant.arriveIn {q : Pointer Obj} {objs : PointsToSet Obj} {rest}
    {succs : List (Pointer Obj)} {news : List Obj} (h : Invariant a entry s)
    (ht : s.traffic.entries = (q, objs) :: rest) (hsuccs : ∀ r, s.HasFlow (q, r) → r ∈ succs)
    (hnews : ∀ o ∈ objs \ s.flow.points q, o ∈ news) :
    Invariant a entry ({ s with traffic := ⟨rest⟩ }.arriveIn a q objs succs news) := by
  have hland : Keeps s ({ s with traffic := ⟨rest⟩ }.land q objs) :=
    ⟨fun _ h => h, fun _ h => h, fun _ _ => due_land ht⟩
  have hnew : ∀ r o, o ∈ ({ s with traffic := ⟨rest⟩ }.land q objs).flow.points r →
      o ∈ s.flow.points r ∨ r = q ∧ o ∈ objs \ s.flow.points q := fun r o hr => by
    by_cases hs : o ∈ s.flow.points r
    · exact .inl hs
    · obtain ⟨rfl, hm⟩ := (mem_points_land.1 hr).resolve_left hs
      exact .inr ⟨rfl, ExtTreeSet.mem_diff_iff.2 ⟨hm, hs⟩⟩
  unfold State.arriveIn
  dsimp only
  split
  · rename_i he
    rw [ExtTreeSet.isEmpty_iff.1 he] at ht
    exact h.of_keeps (keeps_of_empty ht) rfl rfl (fun _ h => h) fun _ _ h => h
  split
  · rename_i hn
    refine h.of_keeps hland rfl rfl (fun _ h => h) fun r o hr => ?_
    rcases hnew r o hr with hr | ⟨-, hm⟩
    · exact hr
    · rw [ExtTreeSet.isEmpty_iff.1 hn] at hm
      simp at hm
  · exact h.propagate hland rfl rfl (fun _ h => h) hnew hsuccs hnews

theorem Invariant.advances (h : Invariant a entry s) (hs : Advances a s t) :
    Invariant a entry t := by
  cases hs with
  | turn hp => exact h.addMethod hp
  | arrival _ ht hsuccs hnews =>
    exact h.arriveIn ht (fun _ => (mem_of_perm_succs hsuccs).2)
      fun _ => (mem_of_perm_toList hnews).2

theorem Invariant.step (ho : ∀ q l, (a.order q l).Perm l) (h : Invariant a entry s)
    (hs : step a s = some t) : Invariant a entry t :=
  h.advances (advances_of_step ho hs)

/-! ## The end -/

/-- What has been found in a state. -/
def outcome (s : State) : Outcome where
  reaches m := m ∈ s.calls.reachable
  calls e := e ∈ s.calls.edges
  points q o := o ∈ s.flow.points q
  flows := s.HasFlow

/-- When nothing is pending or travels any more, all demands are met. -/
theorem Invariant.meets (h : Invariant a entry s) (hs : PointsTo.step a s = none) :
    s.outcome.Meets a entry := by
  obtain ⟨hp, ht⟩ := step_eq_none_iff.1 hs
  have harrived : ∀ {q o}, s.Due q o → o ∈ s.flow.points q := fun hd => by
    rcases hd with hd | ⟨objs, hd, -⟩
    · exact hd
    · rw [ht] at hd
      cases hd
  have hcon : ∀ {m}, m ∈ s.calls.reachable → ∀ x ∈ a.program.stmtsOf m, Contributed a x s :=
    fun hm => (h.contributed _ hm).resolve_left (by simp [hp])
  constructor
  case entry => exact h.entry
  case new => exact fun hm hx hi => harrived ((hcon hm _ hx).new _ _ hi)
  case copy => exact fun hm hx hi => (hcon hm _ hx).copy _ hi
  case static => exact fun hm hx hi => (hcon hm _ hx).static _ hi
  case access => exact fun hv he => (h.served _ _ hv).access _ he
  case receiverCall => exact fun hv he => ((h.served _ _ hv).receiverCall _ he).1
  case receiver => exact fun hv he ht => harrived (((h.served _ _ hv).receiverCall _ he).2 _ ht)
  case callee => exact fun he => h.reached _ he
  case binding => exact fun he hf => h.bound _ he _ hf
  case along => exact fun he hq => harrived (h.carried _ he _ hq)

end ObjectFlow.PointsTo.State
