import ObjectFlow.Proofs.PointsTo.Closure

/-!
# Growth of the solver's state

`Extends s t`: the operations between two polls lead from `s` to `t`. They add methods, calls, flows
and traffic, take nothing away and leave the sets of objects alone. Every operation of the solver
extends the state (`extends_addFlow` to `extends_addObject`) and establishes what it is for
(`hasFlow_addFlow`, `mem_addCall`, `contributed_addMethod`, `served_addObject`); what is established
stays so, as it is stated of things that only grow.
-/

namespace ObjectFlow.PointsTo.State

open Std

variable {a : Setup} {p : Program} {s t u : State}

/-- `o` is at `q` or on its way there. -/
def Due (s : State) (q : Pointer Obj) (o : Obj) : Prop :=
  o ∈ s.flow.points q ∨ ∃ objs, (q, objs) ∈ s.traffic.entries ∧ o ∈ objs

def HasFlow (s : State) (e : FlowEdge) : Prop := s.flow.graph.hasEdge e.1 e.2 = true

/-- No call, no flow and no due object is lost. -/
structure Keeps (s t : State) : Prop where
  edges : ∀ e ∈ s.calls.edges, e ∈ t.calls.edges
  flows : ∀ e, s.HasFlow e → t.HasFlow e
  due : ∀ q o, s.Due q o → t.Due q o

theorem Keeps.trans (h : Keeps s t) (k : Keeps t u) : Keeps s u :=
  ⟨fun e he => k.edges e (h.edges e he), fun e he => k.flows e (h.flows e he),
    fun q o ho => k.due q o (h.due q o ho)⟩

/-- What the operations between two polls may do. Methods that they find wait from then on. -/
structure Extends (s t : State) : Prop where
  found : ∃ new, t.calls.reachable = s.calls.reachable ++ new ∧ t.pending = s.pending ++ new
  nodup : s.calls.reachable.Nodup → t.calls.reachable.Nodup
  edges : ∀ e ∈ s.calls.edges, e ∈ t.calls.edges
  flows : ∀ e, s.HasFlow e → t.HasFlow e
  points : t.flow.sets = s.flow.sets
  traffic : ∀ x ∈ s.traffic.entries, x ∈ t.traffic.entries

namespace Extends

/-- Where no method is found, it suffices that calls, flows and traffic are kept. -/
theorem of_reachable_eq (hr : t.calls.reachable = s.calls.reachable) (hp : t.pending = s.pending)
    (he : ∀ e ∈ s.calls.edges, e ∈ t.calls.edges) (hf : ∀ e, s.HasFlow e → t.HasFlow e)
    (hs : t.flow.sets = s.flow.sets) (ht : ∀ x ∈ s.traffic.entries, x ∈ t.traffic.entries) :
    Extends s t :=
  ⟨⟨[], by rw [hr, List.append_nil], by rw [hp, List.append_nil]⟩, fun h => hr ▸ h, he, hf, hs, ht⟩

theorem reachable (h : Extends s t) : ∀ m ∈ s.calls.reachable, m ∈ t.calls.reachable := by
  obtain ⟨new, hr, -⟩ := h.found
  exact fun m hm => hr ▸ List.mem_append_left new hm

theorem pending (h : Extends s t) : ∀ m ∈ s.pending, m ∈ t.pending := by
  obtain ⟨new, -, hp⟩ := h.found
  exact fun m hm => hp ▸ List.mem_append_left new hm

theorem fresh (h : Extends s t) :
    ∀ m ∈ t.calls.reachable, m ∈ s.calls.reachable ∨ m ∈ t.pending := by
  obtain ⟨new, hr, hp⟩ := h.found
  rw [hr, hp]
  exact fun m hm => (List.mem_append.1 hm).imp_right (List.mem_append_right _)

theorem refl (s : State) : Extends s s :=
  of_reachable_eq rfl rfl (fun _ h => h) (fun _ h => h) rfl fun _ h => h

theorem trans (h : Extends s t) (k : Extends t u) : Extends s u where
  found := by
    obtain ⟨new, hr, hp⟩ := h.found
    obtain ⟨new', hr', hp'⟩ := k.found
    refine ⟨new ++ new', ?_, ?_⟩
    · rw [hr', hr, List.append_assoc]
    · rw [hp', hp, List.append_assoc]
  nodup hn := k.nodup (h.nodup hn)
  edges e he := k.edges e (h.edges e he)
  flows e he := k.flows e (h.flows e he)
  points := k.points.trans h.points
  traffic x hx := k.traffic x (h.traffic x hx)

theorem mem_points (h : Extends s t) {q : Pointer Obj} {o : Obj} :
    o ∈ t.flow.points q ↔ o ∈ s.flow.points q := by
  simp only [PointerFlow.points, h.points]

theorem due (h : Extends s t) {q : Pointer Obj} {o : Obj} (hd : s.Due q o) : t.Due q o := by
  rcases hd with hd | ⟨objs, hq, ho⟩
  · exact .inl (h.mem_points.2 hd)
  · exact .inr ⟨objs, h.traffic _ hq, ho⟩

theorem keeps (h : Extends s t) : Keeps s t := ⟨h.edges, h.flows, fun _ _ => h.due⟩

/-- A sequence of extensions is one. -/
theorem foldl {β : Type} {op : State → β → State} (hop : ∀ s b, Extends s (op s b)) (l : List β)
    (s : State) : Extends s (l.foldl op s) := by
  induction l generalizing s with
  | nil => exact .refl s
  | cons b l ih => exact (hop s b).trans (ih _)

/-- What each operation of a sequence establishes and extensions keep, holds at its end. -/
theorem foldl_establishes {β : Type} {op : State → β → State} {P : β → State → Prop}
    (hop : ∀ s b, Extends s (op s b)) (hmono : ∀ b s t, Extends s t → P b s → P b t)
    (hP : ∀ s b, P b (op s b)) {l : List β} {b : β} (hb : b ∈ l) (s : State) :
    P b (l.foldl op s) := by
  induction l generalizing s with
  | nil => cases hb
  | cons c l ih =>
    rw [List.foldl_cons]
    rcases List.mem_cons.1 hb with rfl | hb
    · exact hmono _ _ _ (foldl hop l _) (hP s b)
    · exact ih hb _

end Extends

/-! ## Traffic and flows -/

theorem mem_send {q : Pointer Obj} {objs : PointsToSet Obj} {x : Pointer Obj × PointsToSet Obj} :
    x ∈ (s.send q objs).traffic.entries ↔ x ∈ s.traffic.entries ∨ x = (q, objs) := by
  simp [send, Traffic.push]

theorem extends_send (s : State) (q : Pointer Obj) (objs : PointsToSet Obj) :
    Extends s (s.send q objs) :=
  .of_reachable_eq rfl rfl (fun _ h => h) (fun _ h => h) rfl fun _ hx => mem_send.2 (.inl hx)

theorem due_send {q : Pointer Obj} {objs : PointsToSet Obj} {o : Obj} (ho : o ∈ objs) :
    (s.send q objs).Due q o := .inr ⟨objs, mem_send.2 (.inr rfl), ho⟩

/-- The state with a flow that nothing has been sent along. -/
def link (s : State) (e : FlowEdge) : State := { s with flow := (s.flow.addEdge e.1 e.2).2 }

theorem hasFlow_link {e f : FlowEdge} : (s.link e).HasFlow f ↔ f = e ∨ s.HasFlow f := by
  simp only [link, PointerFlow.addEdge, HasFlow, Digraph.hasEdge_iff_mem_succs,
    Digraph.mem_succs_addEdge, Prod.ext_iff, eq_comm (a := f.1), eq_comm (a := f.2)]

theorem extends_link (s : State) (e : FlowEdge) : Extends s (s.link e) :=
  .of_reachable_eq rfl rfl (fun _ h => h) (fun _ h => hasFlow_link.2 (.inr h)) rfl fun _ h => h

/-- A flow is there already, or it is added and what its source points to is sent along it. -/
theorem addFlow_cases (s : State) (e : FlowEdge) :
    (s.HasFlow e ∧ s.addFlow e = s) ∨
    (¬ s.HasFlow e ∧ s.flow.points e.1 = ∅ ∧ s.addFlow e = s.link e) ∨
    (¬ s.HasFlow e ∧ s.addFlow e = (s.link e).send e.2 (s.flow.points e.1)) := by
  unfold addFlow
  split
  · exact .inl ⟨‹_›, rfl⟩
  · rename_i he
    dsimp only
    split
    · exact .inr (.inl ⟨he, ExtTreeSet.isEmpty_iff.1 ‹_›, rfl⟩)
    · exact .inr (.inr ⟨he, rfl⟩)

theorem hasFlow_addFlow {e f : FlowEdge} : (s.addFlow e).HasFlow f ↔ f = e ∨ s.HasFlow f := by
  rcases addFlow_cases s e with ⟨he, h⟩ | ⟨-, -, h⟩ | ⟨-, h⟩
  · rw [h]
    exact ⟨.inr, fun h => h.elim (fun h => h ▸ he) id⟩
  · rw [h]
    exact hasFlow_link
  · rw [h]
    exact hasFlow_link

theorem extends_addFlow (s : State) (e : FlowEdge) : Extends s (s.addFlow e) := by
  rcases addFlow_cases s e with ⟨-, h⟩ | ⟨-, -, h⟩ | ⟨-, h⟩
  · rw [h]
    exact .refl s
  · rw [h]
    exact extends_link s e
  · rw [h]
    exact (extends_link s e).trans (extends_send _ _ _)

/-- Along a new flow everything is sent that its source points to. -/
theorem due_addFlow {e : FlowEdge} {o : Obj} (he : ¬ s.HasFlow e) (ho : o ∈ s.flow.points e.1) :
    (s.addFlow e).Due e.2 o := by
  rcases addFlow_cases s e with ⟨hs, -⟩ | ⟨-, hn, -⟩ | ⟨-, h⟩
  · exact absurd hs he
  · rw [hn] at ho
    simp at ho
  · rw [h]
    exact due_send ho

/-! ## Methods and calls -/

theorem extends_reach (s : State) (m : MethodId) : Extends s (s.reach m) := by
  unfold reach
  split
  · exact .refl s
  · rename_i hm
    have hnew : (s.calls.addReachable m).reachable = s.calls.reachable ++ [m] := if_neg hm
    exact ⟨⟨[m], hnew, rfl⟩, nodup_adjoin, fun _ h => h, fun _ h => h, rfl, fun _ h => h⟩

theorem mem_reach {m : MethodId} : m ∈ (s.reach m).calls.reachable := by
  unfold reach
  split
  · assumption
  · exact mem_adjoin.2 (.inr rfl)

/-- The state in which a call has been noted and its callee reached, but nothing is bound yet. -/
def noteCall (s : State) (e : CallEdge) : State :=
  { s with calls := s.calls.addEdge e }.reach e.callee

theorem mem_noteCall {e f : CallEdge} :
    f ∈ (s.noteCall e).calls.edges ↔ f ∈ s.calls.edges ∨ f = e := by
  unfold noteCall reach
  split <;> exact mem_adjoin

theorem extends_noteCall (s : State) (e : CallEdge) : Extends s (s.noteCall e) :=
  Extends.trans (t := { s with calls := s.calls.addEdge e })
    (.of_reachable_eq rfl rfl (fun _ h => mem_adjoin.2 (.inl h)) (fun _ h => h) rfl fun _ h => h)
    (extends_reach _ _)

theorem addCall_eq {e : CallEdge} (he : e ∉ s.calls.edges) :
    s.addCall p e = (bindings p e).foldl addFlow (s.noteCall e) := by
  unfold addCall bindings Declarations.instrAt? noteCall
  rw [if_neg he]
  dsimp only
  cases p.stmtAt? e.site <;> rfl

theorem addCall_of_mem {e : CallEdge} (he : e ∈ s.calls.edges) : s.addCall p e = s := by
  unfold addCall
  rw [if_pos he]

theorem extends_addCall (s : State) (e : CallEdge) : Extends s (s.addCall p e) := by
  by_cases he : e ∈ s.calls.edges
  · rw [addCall_of_mem he]
    exact .refl s
  · rw [addCall_eq he]
    exact (extends_noteCall s e).trans (.foldl extends_addFlow _ _)

theorem mem_addCall {e : CallEdge} : e ∈ (s.addCall p e).calls.edges := by
  by_cases he : e ∈ s.calls.edges
  · exact (extends_addCall s e).edges e he
  · rw [addCall_eq he]
    exact (Extends.foldl extends_addFlow _ _).edges e (mem_noteCall.2 (.inr rfl))

theorem extends_addReceiverCall (s : State) (o : Obj) (e : CallEdge) :
    Extends s (s.addReceiverCall p o e) := by
  unfold addReceiverCall
  dsimp only
  split
  · exact (extends_send _ _ _).trans (extends_addCall _ _)
  · exact extends_addCall _ _

/-- A call on a receiver is noted, and the receiver is due at `this`. -/
theorem addReceiverCall_spec {o : Obj} {e : CallEdge} :
    e ∈ (s.addReceiverCall p o e).calls.edges ∧
      ∀ this, thisVar? p.toDeclarations e.callee = some this →
        (s.addReceiverCall p o e).Due (.var this) o := by
  unfold addReceiverCall
  dsimp only
  refine ⟨mem_addCall, fun this ht => ?_⟩
  rw [ht]
  exact (extends_addCall _ _).due (due_send (by simp))

/-! ## Statements and methods -/

/-- The three things that a statement may contribute, one after the other. -/
theorem addStmt_eq (site : Site) (i : Instr) : s.addStmt a site i =
    (staticCall? a.program site i).toList.foldl (·.addCall a.program ·)
      ((copyEdge? i).toList.foldl addFlow
        ((allocation? i).toList.foldl
          (fun s (v, type) => s.send (.var v) {a.heap site type}) s)) := by
  unfold addStmt
  cases allocation? i <;> cases copyEdge? i <;> cases staticCall? a.program site i <;> rfl

theorem extends_addStmt (s : State) (x : Site × Instr) : Extends s (s.addStmt a x.1 x.2) := by
  rw [addStmt_eq]
  exact ((Extends.foldl (fun s _ => extends_send s _ _) _ _).trans
    (.foldl extends_addFlow _ _)).trans (.foldl extends_addCall _ _)

/-- A statement has contributed. -/
structure Contributed (a : Setup) (x : Site × Instr) (s : State) : Prop where
  new : ∀ v type, allocation? x.2 = some (v, type) → s.Due (.var v) (a.heap x.1 type)
  copy : ∀ e, copyEdge? x.2 = some e → s.HasFlow e
  static : ∀ e, staticCall? a.program x.1 x.2 = some e → e ∈ s.calls.edges

theorem Contributed.mono {x : Site × Instr} (h : Contributed a x s) (k : Keeps s t) :
    Contributed a x t where
  new v type hi := k.due _ _ (h.new v type hi)
  copy e he := k.flows e (h.copy e he)
  static e he := k.edges e (h.static e he)

theorem contributed_addStmt (x : Site × Instr) : Contributed a x (s.addStmt a x.1 x.2) := by
  rw [addStmt_eq]
  have h1 := fun s => Extends.foldl extends_addFlow (copyEdge? x.2).toList s
  have h2 := fun s => Extends.foldl (extends_addCall (p := a.program))
    (staticCall? a.program x.1 x.2).toList s
  refine ⟨fun v type hi => ?_, fun e he => ?_, fun e he => ?_⟩
  · rw [hi]
    exact ((h1 _).trans (h2 _)).due (due_send (by simp))
  · rw [he]
    exact (h2 _).flows e (hasFlow_addFlow.2 (.inl rfl))
  · rw [he]
    exact mem_addCall

theorem extends_addMethod (s : State) (m : MethodId) : Extends s (s.addMethod a m) :=
  .foldl extends_addStmt _ _

theorem contributed_addMethod {m : MethodId} {x : Site × Instr} (hx : x ∈ a.program.stmtsOf m) :
    Contributed a x (s.addMethod a m) :=
  Extends.foldl_establishes extends_addStmt (fun _ _ _ k h => h.mono k.keeps)
    (fun _ x => contributed_addStmt x) hx s

/-! ## Objects -/

theorem extends_addObject (s : State) (v : VarId) (o : Obj) : Extends s (s.addObject a v o) :=
  (Extends.foldl extends_addFlow _ _).trans (.foldl (fun s e => extends_addReceiverCall s o e) _ _)

/-- The accesses and calls through `v` have been served for `o`. -/
structure Served (a : Setup) (v : VarId) (o : Obj) (s : State) : Prop where
  access : ∀ e ∈ accessFlows a.program v o, s.HasFlow e
  receiverCall : ∀ e ∈ receiverCalls a.program v o, e ∈ s.calls.edges ∧
    ∀ this, thisVar? a.program.toDeclarations e.callee = some this → s.Due (.var this) o

theorem Served.mono {v : VarId} {o : Obj} (h : Served a v o s) (k : Keeps s t) :
    Served a v o t where
  access e he := k.flows e (h.access e he)
  receiverCall e he := ⟨k.edges e (h.receiverCall e he).1,
    fun this ht => k.due _ _ ((h.receiverCall e he).2 this ht)⟩

theorem served_addObject {v : VarId} {o : Obj} : Served a v o (s.addObject a v o) where
  access e he := by
    refine (Extends.foldl (fun s e => extends_addReceiverCall s o e) _ _).flows e ?_
    exact Extends.foldl_establishes (P := fun e s => s.HasFlow e) extends_addFlow
      (fun e _ _ k h => k.flows e h) (fun _ _ => hasFlow_addFlow.2 (.inl rfl)) he s
  receiverCall e he :=
    Extends.foldl_establishes
      (P := fun e s => e ∈ s.calls.edges ∧ ∀ this,
        thisVar? a.program.toDeclarations e.callee = some this → s.Due (.var this) o)
      (fun s e => extends_addReceiverCall s o e)
      (fun e _ _ k h => ⟨k.edges e h.1, fun this ht => k.due (h.2 this ht)⟩)
      (fun _ _ => addReceiverCall_spec) he _

/-! ## Steps -/

/-- A step gives the first pending method its turn or, if none is pending, lets the oldest entry
arrive. -/
theorem step_cases (h : step a s = some t) :
    (∃ m rest, s.pending = m :: rest ∧ t = { s with pending := rest }.addMethod a m) ∨
    ∃ q objs rest, s.pending = [] ∧ s.traffic.entries = (q, objs) :: rest ∧
      t = { s with traffic := ⟨rest⟩ }.arrive a q objs := by
  unfold step at h
  split at h
  · rename_i m rest hp
    exact .inl ⟨m, rest, hp, (Option.some.inj h).symm⟩
  · rename_i hp
    obtain ⟨⟨⟨q, objs⟩, ⟨rest⟩⟩, hq, rfl⟩ := Option.map_eq_some_iff.1 h
    refine .inr ⟨q, objs, rest, hp, ?_, rfl⟩
    unfold Traffic.poll? at hq
    split at hq
    · cases hq
    · rename_i e entries ht
      cases hq
      exact ht

theorem step_eq_none_iff : step a s = none ↔ s.pending = [] ∧ s.traffic.entries = [] := by
  unfold step Traffic.poll?
  cases s.pending <;> cases s.traffic.entries <;> simp

end ObjectFlow.PointsTo.State
