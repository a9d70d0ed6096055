import Mathlib.Algebra.BigOperators.Group.Finset.Basic
import Mathlib.Algebra.GroupWithZero.Nat
import Mathlib.Algebra.Order.BigOperators.Group.Finset
import ObjectFlow.Proofs.PointsTo.Bound
import ObjectFlow.Proofs.PointsTo.World

/-!
# Why the points-to solver ends

What a state can still gain within the world of its program, weighed by the work that each gain
causes, is its `potential`: a method reached contributes its statements, a new flow sends once, and
a new object at a pointer is sent to all successors and served at all calls. Every step lowers the
potential (`potential_step`), which starts below the budget of the program (`potential_start`).
-/

namespace ObjectFlow.PointsTo.State

open Std Finset

variable {a : Setup} {s t : State}

/-- The work that a method causes: its turn, and at most one entry for each statement. -/
def weight (a : Setup) (m : MethodId) : Nat := 1 + (a.program.stmtsOf m).length

/-- The work of methods that have not had their turn. -/
def backlog (a : Setup) (s : State) : Nat :=
  (s.pending.map (weight a)).sum + ∑ m ∈ a.methods with m ∉ s.calls.reachable, weight a m

instance : DecidablePred s.HasFlow := fun _ => inferInstanceAs (Decidable (_ = true))

/-- The flows that can still be added. -/
def openFlows (a : Setup) (s : State) : Finset FlowEdge :=
  {e ∈ a.pointers ×ˢ a.pointers | ¬ s.HasFlow e}

/-- The objects that can still arrive. -/
def openPoints (a : Setup) (s : State) : Finset (Pointer Obj × Obj) :=
  {x ∈ a.pointers ×ˢ a.objs | x.2 ∉ s.flow.points x.1}

/-- The entries that an object new at a pointer can cause. -/
def reachOf (a : Setup) : Nat := #a.pointers + a.program.allStmts.length

def potential (a : Setup) (s : State) : Nat :=
  backlog a s + s.traffic.entries.length + #(openFlows a s) + #(openPoints a s) * reachOf a

/-! ## The cost of an operation -/

/-- What leaves the flow graph alone changes the backlog and the traffic only. -/
theorem potential_of_flow_eq (h : t.flow = s.flow) :
    potential a t + (backlog a s + s.traffic.entries.length) =
      potential a s + (backlog a t + t.traffic.entries.length) := by
  have hflow : ∀ e, t.HasFlow e ↔ s.HasFlow e := fun e => by unfold HasFlow; rw [h]
  have hf : openFlows a t = openFlows a s := by
    ext e
    rw [openFlows, openFlows, mem_filter, mem_filter, hflow]
  have ho : openPoints a t = openPoints a s := by simp only [openPoints, h]
  unfold potential
  rw [hf, ho]
  omega

theorem potential_send (q : Pointer Obj) (objs : PointsToSet Obj) :
    potential a (s.send q objs) = potential a s + 1 := by
  have h := potential_of_flow_eq (a := a) (s := s) (t := s.send q objs) rfl
  have hb : backlog a (s.send q objs) = backlog a s := rfl
  have ht : (s.send q objs).traffic.entries.length = s.traffic.entries.length + 1 := by
    simp [send, Traffic.push]
  omega

theorem potential_link {e : FlowEdge} (he : a.world.flows e) (hs : ¬ s.HasFlow e) :
    potential a (s.link e) + 1 ≤ potential a s := by
  have hb : backlog a (s.link e) = backlog a s := rfl
  have ho : openPoints a (s.link e) = openPoints a s := rfl
  have ht : (s.link e).traffic.entries.length = s.traffic.entries.length := rfl
  have hf : #(openFlows a (s.link e)) < #(openFlows a s) := by
    refine card_lt_card ⟨fun f hf => ?_, fun h => ?_⟩
    · simp only [openFlows, mem_filter, hasFlow_link, not_or] at hf ⊢
      exact ⟨hf.1, hf.2.2⟩
    · have := h (mem_filter.2 ⟨mem_product.2 he, hs⟩)
      simp [openFlows, hasFlow_link] at this
  unfold potential
  rw [ho]
  omega

/-- A new flow sends at most once. -/
theorem potential_addFlow {e : FlowEdge} (he : a.world.flows e) :
    potential a (s.addFlow e) ≤ potential a s := by
  rcases addFlow_cases s e with ⟨-, h⟩ | ⟨hs, -, h⟩ | ⟨hs, h⟩
  · rw [h]
  · have := potential_link he hs
    rw [h]
    omega
  · have := potential_link he hs
    rw [h, potential_send]
    omega

/-- A sequence of operations costs what each may cost. -/
theorem potential_foldl {β : Type} {op : State → β → State} {l : List β} {k : Nat}
    (h : ∀ s, ∀ b ∈ l, potential a (op s b) ≤ potential a s + k) (s : State) :
    potential a (l.foldl op s) ≤ potential a s + l.length * k := by
  induction l generalizing s with
  | nil => simp
  | cons b l ih =>
    have h1 := h s b List.mem_cons_self
    have h2 := ih (fun s c hc => h s c (List.mem_cons_of_mem b hc)) (op s b)
    rw [List.foldl_cons, List.length_cons, Nat.add_mul]
    omega

theorem potential_foldl_le {β : Type} {op : State → β → State} {l : List β}
    (h : ∀ s, ∀ b ∈ l, potential a (op s b) ≤ potential a s) (s : State) :
    potential a (l.foldl op s) ≤ potential a s := by
  have := potential_foldl (k := 0) h s
  rwa [Nat.mul_zero, Nat.add_zero] at this

theorem potential_addFlows {l : List FlowEdge} (hl : ∀ e ∈ l, a.world.flows e) (s : State) :
    potential a (l.foldl addFlow s) ≤ potential a s :=
  potential_foldl_le (fun _ e he => potential_addFlow (hl e he)) s

theorem backlog_reach {m : MethodId} (hm : m ∈ a.methods) :
    backlog a (s.reach m) = backlog a s := by
  unfold reach
  split
  · rfl
  · rename_i hr
    have hopen : ({k ∈ a.methods | k ∉ s.calls.reachable} : Finset MethodId) =
        insert m {k ∈ a.methods | k ∉ (s.calls.addReachable m).reachable} := by
      ext k
      simp only [mem_filter, mem_insert, CallGraph.addReachable, mem_adjoin, not_or]
      by_cases hk : k = m
      · subst hk
        simp [hm, hr]
      · simp [hk]
    unfold backlog
    rw [hopen, sum_insert (by simp [CallGraph.addReachable, mem_adjoin])]
    simp
    omega

theorem potential_reach {m : MethodId} (hm : m ∈ a.methods) :
    potential a (s.reach m) = potential a s := by
  have h := potential_of_flow_eq (a := a) (flow_reach s m)
  have hb := backlog_reach (s := s) hm
  have ht : (s.reach m).traffic = s.traffic := by
    unfold reach
    split <;> rfl
  rw [ht] at h
  omega

section
variable {entry : MethodId} (hw : a.world.Meets a entry)
include hw

theorem potential_addCall {e : CallEdge} (he : a.world.calls e) :
    potential a (s.addCall a.program e) ≤ potential a s := by
  by_cases hs : e ∈ s.calls.edges
  · rw [addCall_of_mem hs]
  · have hnote : potential a (s.noteCall e) = potential a s :=
      potential_reach (s := { s with calls := s.calls.addEdge e }) he
    rw [addCall_eq hs, ← hnote]
    exact potential_addFlows (fun f hf => hw.binding he hf) _

theorem potential_addReceiverCall {v : VarId} {o : Obj} {e : CallEdge}
    (hv : a.world.points (.var v) o) (he : e ∈ receiverCalls a.program v o) :
    potential a (s.addReceiverCall a.program o e) ≤ potential a s + 1 := by
  have hc := hw.receiverCall hv he
  unfold addReceiverCall
  dsimp only
  split
  · rw [← potential_send]
    exact potential_addCall hw hc
  · exact Nat.le_succ_of_le (potential_addCall hw hc)

/-- A statement sends at most once. -/
theorem potential_addStmt {m : MethodId} {site : Site} {i : Instr}
    (hs : (site, i) ∈ a.program.stmtsOf m) (hm : m ∈ a.methods) :
    potential a (s.addStmt a site i) ≤ potential a s + 1 := by
  rw [addStmt_eq]
  have hnew := potential_foldl (a := a) (k := 1) (l := (allocation? i).toList)
    (fun s b _ => Nat.le_of_eq (potential_send (s := s) (.var b.1) {a.heap site b.2})) s
  have hlen : (allocation? i).toList.length ≤ 1 := by cases allocation? i <;> simp
  have hcopy : ∀ s : State, potential a ((copyEdge? i).toList.foldl addFlow s) ≤ potential a s :=
    potential_addFlows fun e he => hw.copy hm hs (Option.mem_toList.1 he)
  have hcall : ∀ s : State, potential a
      ((staticCall? a.program site i).toList.foldl (·.addCall a.program ·) s) ≤ potential a s :=
    potential_foldl_le fun s e he =>
      potential_addCall (s := s) hw (hw.static hm hs (Option.mem_toList.1 he))
  refine (hcall _).trans ((hcopy _).trans (hnew.trans ?_))
  omega

theorem potential_addMethod {m : MethodId} (hm : m ∈ a.methods) :
    potential a (s.addMethod a m) ≤ potential a s + (a.program.stmtsOf m).length := by
  have := potential_foldl (k := 1) (fun s x hx => potential_addStmt (s := s) hw hx hm) s
  rwa [Nat.mul_one] at this

theorem potential_addObject (hp : a.program.Valid) {v : VarId} {o : Obj}
    (hv : a.world.points (.var v) o) :
    potential a (s.addObject a v o) ≤ potential a s + a.program.allStmts.length := by
  have hflows := potential_addFlows (fun e he => hw.access hv he) s
  have hcalls := potential_foldl (k := 1)
    (fun s e he => potential_addReceiverCall (s := s) hw hv he)
    ((accessFlows a.program v o).foldl addFlow s)
  have hlen : (receiverCalls a.program v o).length ≤ a.program.allStmts.length :=
    Nat.le_trans (List.length_filterMap_le _ _) (hp.length_usesAs_le v .invoke)
  unfold addObject
  dsimp only
  omega

end

/-! ## Arrivals -/

/-- An object that lands at a pointer for the first time closes a gap. -/
theorem card_openPoints_land {q : Pointer Obj} {objs : PointsToSet Obj}
    (hw : ∀ o ∈ objs, a.world.points q o) :
    #(openPoints a (s.land q objs)) + (objs \ s.flow.points q).toList.length ≤
      #(openPoints a s) := by
  have hdisj : Disjoint (openPoints a (s.land q objs))
      ((objs \ s.flow.points q).toList.toFinset.image (q, ·)) := by
    refine disjoint_left.2 fun x hx hn => ?_
    obtain ⟨o, ho, rfl⟩ := mem_image.1 hn
    have ho := ExtTreeSet.mem_diff_iff.1 (ExtTreeSet.mem_toList.1 (List.mem_toFinset.1 ho))
    exact (mem_filter.1 hx).2 (mem_points_land.2 (.inr ⟨rfl, ho.1⟩))
  have hsub : openPoints a (s.land q objs) ∪
      (objs \ s.flow.points q).toList.toFinset.image (q, ·) ⊆ openPoints a s := by
    refine union_subset (fun x hx => ?_) (fun x hx => ?_)
    · have hx := mem_filter.1 hx
      exact mem_filter.2 ⟨hx.1, fun h => hx.2 (mem_points_land.2 (.inl h))⟩
    · obtain ⟨o, ho, rfl⟩ := mem_image.1 hx
      have ho := ExtTreeSet.mem_diff_iff.1 (ExtTreeSet.mem_toList.1 (List.mem_toFinset.1 ho))
      exact mem_filter.2 ⟨mem_product.2 (hw o ho.1), ho.2⟩
  have hcard := card_le_card hsub
  rwa [card_union_of_disjoint hdisj, card_image_of_injective _ (Prod.mk_right_injective q),
    List.toFinset_card_of_nodup (nodup_toList _)] at hcard

theorem potential_land {q : Pointer Obj} {objs : PointsToSet Obj}
    (hw : ∀ o ∈ objs, a.world.points q o) :
    potential a (s.land q objs) + (objs \ s.flow.points q).toList.length * reachOf a ≤
      potential a s := by
  have hb : backlog a (s.land q objs) = backlog a s := rfl
  have hf : openFlows a (s.land q objs) = openFlows a s := rfl
  have ht : (s.land q objs).traffic = s.traffic := rfl
  have ho := Nat.mul_le_mul_right (reachOf a) (card_openPoints_land (s := s) hw)
  rw [Nat.add_mul] at ho
  unfold potential
  rw [hb, hf, ht]
  omega

/-- A pointer has no more successors than there are pointers. -/
theorem potential_sendAll (h : Within a.world s) {q : Pointer Obj} {l : List (Pointer Obj)}
    (hl : l.Perm (s.flow.graph.succs q).toList) (new : PointsToSet Obj) :
    potential a (s.sendAll new l) ≤ potential a s + #a.pointers := by
  have hsend := potential_foldl (a := a) (k := 1) (l := l)
    (fun s r _ => Nat.le_of_eq (potential_send (s := s) r new)) s
  have hsub : (s.flow.graph.succs q).toList.toFinset ⊆ a.pointers := fun r hr =>
    (h.flows (q, r) (Digraph.hasEdge_iff_mem_succs.2
      (ExtTreeSet.mem_toList.1 (List.mem_toFinset.1 hr)))).2
  have hcard := card_le_card hsub
  rw [List.toFinset_card_of_nodup (nodup_toList _), ← hl.length_eq] at hcard
  unfold sendAll
  omega

theorem potential_serveAll {entry : MethodId} (hp : a.program.Valid)
    (hw : a.world.Meets a entry) {q : Pointer Obj} {l : List Obj}
    (hl : ∀ o ∈ l, a.world.points q o) :
    potential a (s.serveAll a q l) ≤ potential a s + l.length * a.program.allStmts.length := by
  unfold serveAll
  split
  · exact potential_foldl (fun s o ho => potential_addObject (s := s) hw hp (hl o ho)) s
  · omega

theorem potential_arriveIn {entry : MethodId} (hp : a.program.Valid) (hw : a.world.Meets a entry)
    (h : Within a.world s) {q : Pointer Obj} {objs : PointsToSet Obj} {succs : List (Pointer Obj)}
    {news : List Obj} (hsuccs : succs.Perm (s.flow.graph.succs q).toList)
    (hnews : news.Perm (objs \ s.flow.points q).toList) (hq : ∀ o ∈ objs, a.world.points q o) :
    potential a (s.arriveIn a q objs succs news) ≤ potential a s := by
  have hland := potential_land (s := s) hq
  unfold arriveIn
  dsimp only
  split
  · exact Nat.le_refl _
  split
  · omega
  · rename_i hn
    have hnew : ∀ o ∈ news, a.world.points q o :=
      fun o hm => hq o (ExtTreeSet.mem_diff_iff.1 ((mem_of_perm_toList hnews).1 hm)).1
    have hlanded : Within a.world (s.land q objs) := h.land hq
    have hsend := potential_sendAll hlanded hsuccs (objs \ s.flow.points q)
    have hserve := potential_serveAll
      (s := (s.land q objs).sendAll (objs \ s.flow.points q) succs) hp hw hnew
    -- what lands pays for the entries to all successors and for the calls on each new object
    have hpos : 1 ≤ (objs \ s.flow.points q).toList.length := by
      rw [Nat.one_le_iff_ne_zero, Ne, List.length_eq_zero_iff]
      exact fun h0 => hn (by simpa using h0)
    have hpay := Nat.mul_le_mul_right #a.pointers hpos
    unfold reachOf at hland
    rw [Nat.mul_add] at hland
    rw [hnews.length_eq] at hserve
    omega

theorem potential_advances {entry : MethodId} (hp : a.program.Valid) (hw : a.world.Meets a entry)
    (h : Within a.world s) (hs : Advances a s t) : potential a t < potential a s := by
  cases hs with
  | @turn m rest hpend =>
    have hm : m ∈ a.methods := h.pending m (hpend ▸ List.mem_cons_self)
    have htake := potential_of_flow_eq (a := a) (s := s) (t := { s with pending := rest }) rfl
    have hback : backlog a s = backlog a { s with pending := rest } + weight a m := by
      simp only [backlog, hpend, List.map_cons, List.sum_cons]
      omega
    have hadd := potential_addMethod (s := { s with pending := rest }) hw hm
    unfold weight at hback
    dsimp only at htake
    omega
  | @arrival q objs rest succs news hpend ht hsuccs hnews =>
    have hpoll := potential_of_flow_eq (a := a) (s := s) (t := { s with traffic := ⟨rest⟩ }) rfl
    have hback : backlog a { s with traffic := ⟨rest⟩ } = backlog a s := rfl
    have harrive := potential_arriveIn hp hw (h.poll ht) hsuccs hnews
      fun o hm => h.due q o (.inr ⟨objs, ht ▸ List.mem_cons_self, hm⟩)
    rw [hback, ht, List.length_cons] at hpoll
    dsimp only at hpoll
    omega

/-- Every step lowers the potential. -/
theorem potential_step {entry : MethodId} (hp : a.program.Valid) (hw : a.world.Meets a entry)
    (ho : ∀ q l, (a.order q l).Perm l) (h : Within a.world s) (hs : step a s = some t) :
    potential a t < potential a s :=
  potential_advances hp hw h (advances_of_step ho hs)

/-! ## The start -/

theorem sum_weight_le (a : Setup) :
    ∑ m ∈ a.methods, weight a m ≤ a.program.methods.size + a.program.allStmts.length := by
  have hstmts : ∑ m ∈ a.methods, (a.program.stmtsOf m).length = a.program.allStmts.length := by
    rw [Setup.methods, Declarations.methodIds, List.sum_toFinset _ (EntityId.nodup_below _),
      Declarations.allStmts, List.length_flatMap, Declarations.methodIds]
  have hmethods : #a.methods ≤ a.program.methods.size := Setup.card_below_le _
  simp only [weight, sum_add_distrib, ← card_eq_sum_ones, hstmts]
  omega

/-- The budget in terms of a bound `n` on the objects and a bound `k` on the pointers. -/
theorem exists_budget_eq (a : Setup) : ∃ n k, #a.objs ≤ n ∧
    k = a.program.vars.size + a.program.fields.size + n * a.program.fields.size + n ∧
    budget a.program = a.program.methods.size + a.program.allStmts.length + k * k +
      k * n * (k + a.program.allStmts.length) + 2 :=
  ⟨_, _, Setup.card_objs_le, rfl, rfl⟩

theorem potential_start {entry : MethodId} (he : a.program.HasMethod entry) :
    potential a (start entry) < budget a.program := by
  have hback : backlog a (start entry) ≤ a.program.methods.size + a.program.allStmts.length := by
    have hr := backlog_reach (s := { (∅ : State) with calls := (∅ : CallGraph).addEntry entry })
      (Setup.mem_methods.2 he)
    refine Nat.le_trans (Nat.le_of_eq hr) (Nat.le_trans ?_ (sum_weight_le a))
    unfold backlog
    rw [show (∅ : State).pending = [] from rfl, List.map_nil, List.sum_nil, Nat.zero_add]
    exact sum_le_sum_of_subset (filter_subset _ _)
  have htraffic : (start entry).traffic.entries.length = 0 := rfl
  obtain ⟨n, k, hobjs, hk, hbudget⟩ := exists_budget_eq a
  have hpointers := Setup.card_pointers_le (a := a)
  have hflows : #(openFlows a (start entry)) ≤ #a.pointers * #a.pointers :=
    (card_filter_le _ _).trans (Nat.le_of_eq (card_product _ _))
  have hpoints : #(openPoints a (start entry)) ≤ #a.pointers * #a.objs :=
    (card_filter_le _ _).trans (Nat.le_of_eq (card_product _ _))
  have hp : #a.pointers ≤ k := by
    rw [hk]
    exact hpointers.trans (by gcongr)
  rw [hbudget]
  unfold potential reachOf
  have h1 : #(openFlows a (start entry)) ≤ k * k := hflows.trans (by gcongr)
  have h2 : #(openPoints a (start entry)) * (#a.pointers + a.program.allStmts.length) ≤
      k * n * (k + a.program.allStmts.length) := by
    refine Nat.mul_le_mul (hpoints.trans ?_) (by omega)
    gcongr
  omega

end ObjectFlow.PointsTo.State
