import ObjectFlow.Dataflow.WorkList
import ObjectFlow.Proofs.Dataflow.Equations

/-!
# The invariant of the work-list solver

`Invariant a g s`: every node that does not wait in the queue of `s` is settled. It holds at the
start (`invariant_start`), where all nodes wait, and is kept by every step (`Invariant.step`): a
visit settles its node, and a new output unsettles only targets, which are called. Monotony plays no
part here. At the end nobody waits (`Invariant.settled_of_stopped`).
-/

namespace ObjectFlow.Dataflow.WorkList

open Std (ExtTreeSet TransOrd LawfulEqOrd)

variable {N F : Type} [Ord N] [TransOrd N] {a : Analysis N F} {g : FlowGraph N}
  {s t : State N F} {n m : N} {x y : F}

/-! ## The queue -/

/-- Everything in the set of the nodes that wait is in the queue. -/
def State.Queued (s : State N F) : Prop := ∀ m ∈ s.queued, m ∈ s.queue

theorem call_cases (s : State N F) (m : N) : (m ∈ s.queued ∧ s.call m = s) ∨
    s.call m = { s with queue := s.queue ++ [m], queued := s.queued.insert m } := by
  unfold State.call
  split
  · exact .inl ⟨‹_›, rfl⟩
  · exact .inr rfl

variable [LawfulEqOrd N]

theorem State.Queued.erase (h : s.Queued) {queue : List N} (hq : s.queue = n :: queue) :
    ∀ m ∈ s.queued.erase n, m ∈ queue := by
  intro m hm
  rw [ExtTreeSet.mem_erase] at hm
  have hmem := h m hm.2
  rw [hq] at hmem
  rcases List.mem_cons.1 hmem with rfl | hmem
  · exact absurd Std.compare_self hm.1
  · exact hmem

/-- The queue after some nodes have been called. -/
theorem calls_spec (l : List N) (s : State N F) (h : s.Queued) :
    (l.foldl State.call s).toState = s.toState ∧ (l.foldl State.call s).Queued ∧
      (∀ m, m ∈ (l.foldl State.call s).queue ↔ m ∈ s.queue ∨ m ∈ l) ∧
      (l.foldl State.call s).queue.length ≤ s.queue.length + l.length := by
  induction l generalizing s with
  | nil => exact ⟨rfl, h, by simp, Nat.le_refl _⟩
  | cons k l ih =>
    rw [List.foldl_cons]
    rcases call_cases s k with ⟨hk, he⟩ | he
    · rw [he]
      obtain ⟨h1, h2, h3, h4⟩ := ih s h
      refine ⟨h1, h2, fun m => ?_, by simp only [List.length_cons]; omega⟩
      rw [h3, List.mem_cons]
      constructor
      · exact fun hm => hm.imp_right .inr
      · rintro (hm | rfl | hm)
        · exact .inl hm
        · exact .inl (h m hk)
        · exact .inr hm
    · rw [he]
      have hq : State.Queued { s with queue := s.queue ++ [k], queued := s.queued.insert k } := by
        intro m hm
        simp only [ExtTreeSet.mem_insert, Std.compare_eq_iff_eq] at hm
        simp only [List.mem_append, List.mem_singleton]
        exact hm.elim (fun hm => .inr hm.symm) fun hm => .inl (h m hm)
      obtain ⟨h1, h2, h3, h4⟩ := ih _ hq
      refine ⟨h1, h2, fun m => ?_, ?_⟩
      · rw [h3, List.mem_cons]
        simp only [List.mem_append, List.mem_singleton, or_assoc]
      · simp only [List.length_append, List.length_cons, List.length_nil] at h4 ⊢
        omega

/-! ## Steps -/

variable [DecidableEq F]

/-- The head of the queue has no facts and is passed over, or it is visited. A visit with a new
output calls the targets. -/
theorem step_cases (hq : s.Queued) (h : step a g s = some t) : ∃ n queue, s.queue = n :: queue ∧
    t.Queued ∧
    (((∀ x y, s.inputs[n]? = some x → s.outputs[n]? ≠ some y) ∧ t.toState = s.toState ∧
        t.queue = queue) ∨
      ∃ x y, s.inputs[n]? = some x ∧ s.outputs[n]? = some y ∧
        t.toState = s.toState.put a n (s.gather a g n x) ∧
        ((a.transfer n (s.gather a g n x) = y ∧ t.queue = queue) ∨
          (a.transfer n (s.gather a g n x) ≠ y ∧
            (∀ m, m ∈ t.queue ↔ m ∈ queue ∨ m ∈ a.targets g n) ∧
            t.queue.length ≤ queue.length + (a.targets g n).length))) := by
  unfold step at h
  split at h
  · cases h
  · rename_i n queue hqueue
    refine ⟨n, queue, hqueue, ?_⟩
    have herase := hq.erase hqueue
    dsimp only at h
    split at h
    · rename_i x y hx hy
      simp only [Option.some.injEq] at h
      subst h
      unfold State.visit
      dsimp only
      split
      · rename_i he
        exact ⟨herase, .inr ⟨x, y, hx, hy, rfl, .inl ⟨he, rfl⟩⟩⟩
      · rename_i he
        obtain ⟨h1, h2, h3, h4⟩ := calls_spec (a.targets g n)
          { s.toState.put a n (s.gather a g n x) with queue, queued := s.queued.erase n } herase
        exact ⟨h2, .inr ⟨x, y, hx, hy, h1, .inr ⟨he, h3, h4⟩⟩⟩
    · rename_i hno
      simp only [Option.some.injEq] at h
      subst h
      exact ⟨herase, .inl ⟨fun x y hx hy => hno x y hx hy, rfl, rfl⟩⟩

/-! ## The invariant -/

variable [DecidableEq N]

/-- Nodes that do not wait are settled. -/
structure Invariant [Preorder F] (a : Analysis N F) (g : FlowGraph N) (s : State N F) : Prop where
  fits : s.Fits a g
  queued : s.Queued
  waits : ∀ m ∈ s.queue, m ∈ g.nodes → m ≠ a.start g
  settled : ∀ n ∈ g.nodes, n ≠ a.start g → n ∈ s.queue ∨ s.Settled a g n

omit [DecidableEq F] in
theorem invariant_start [Preorder F] : Invariant a g (.start a g) where
  fits := State.fits_start
  queued m hm := by simpa [State.start] using hm
  waits m hm _ := (Analysis.mem_order.1 hm).2
  settled n hn hne := .inl (Analysis.mem_order.2 ⟨hn, hne⟩)

theorem Invariant.step [Preorder F] (hr : a.Unentered g) (hj : a.Joins) (h : Invariant a g s)
    (hs : step a g s = some t) : Invariant a g t := by
  obtain ⟨n, queue, hq, hqueued, ⟨hno, ht, htq⟩ | ⟨x, y, hx, hy, ht, hcall⟩⟩ :=
    step_cases h.queued hs
  · refine ⟨by rw [ht]; exact h.fits, hqueued, fun m hm => h.waits m ?_, fun m hm hne => ?_⟩
    · rw [hq, ← htq]
      exact List.mem_cons_of_mem _ hm
    · rw [ht, htq]
      refine (h.settled m hm hne).imp_left fun hmq => ?_
      rw [hq] at hmq
      rcases List.mem_cons.1 hmq with rfl | hmq
      · obtain ⟨x, hx⟩ := (h.fits.inputs m).2 hm
        obtain ⟨y, hy⟩ := (h.fits.outputs m).2 hm
        exact absurd hy (hno x y hx)
      · exact hmq
  · have hn : n ∈ g.nodes := (h.fits.inputs n).1 ⟨x, hx⟩
    have hne : n ≠ a.start g := h.waits n (hq ▸ List.mem_cons_self) hn
    -- a node waits now, or the visit left the outputs of its sources alone
    have key : ∀ m, m ∈ t.queue ∨ ∀ p ∈ a.sources g m,
        (s.put a n (s.gather a g n x)).outputs[p]? = s.outputs[p]? := by
      intro m
      rcases hcall with ⟨he, -⟩ | ⟨-, hmem, -⟩
      · refine .inr fun p _ => ?_
        rw [State.outputs_put]
        split
        · rename_i hp
          rw [he, ← hp, hy]
        · rfl
      · by_cases hm : m ∈ a.targets g n
        · exact .inl ((hmem m).2 (.inr hm))
        · refine .inr fun p hp => ?_
          rw [State.outputs_put, if_neg]
          rintro rfl
          exact hm (hr.mem_targets.2 hp)
    have hstay : ∀ m ∈ queue, m ∈ t.queue := fun m hm => by
      rcases hcall with ⟨-, htq⟩ | ⟨-, hmem, -⟩
      · rwa [htq]
      · exact (hmem m).2 (.inl hm)
    refine ⟨?_, hqueued, fun m hm hnodes => ?_, fun m hm hmne => ?_⟩
    · rw [ht]
      exact h.fits.put hn hne ((h.fits.initial n x hne hx).trans (State.le_gather hj))
    · rcases hcall with ⟨-, htq⟩ | ⟨-, hmem, -⟩
      · exact h.waits m (hq ▸ List.mem_cons_of_mem _ (htq ▸ hm)) hnodes
      · rcases (hmem m).1 hm with hm | hm
        · exact h.waits m (hq ▸ List.mem_cons_of_mem _ hm) hnodes
        · exact hr.ne_start hn hne hnodes hm
    · rw [ht]
      rcases key m with hmq | hsame
      · exact .inl hmq
      · by_cases hnm : n = m
        · subst hnm
          exact .inr (State.settled_put_self hj hsame)
        · refine (h.settled m hm hmne).imp (fun hmq => hstay m ?_) fun hset => hset.put hnm hsame
          rw [hq] at hmq
          exact (List.mem_cons.1 hmq).resolve_left (Ne.symm hnm)

omit [LawfulEqOrd N] [DecidableEq N] in
/-- When nobody waits, all nodes are settled. -/
theorem Invariant.settled_of_stopped [Preorder F] (h : Invariant a g s)
    (hs : WorkList.step a g s = none) : ∀ n ∈ g.nodes, n ≠ a.start g → s.Settled a g n := by
  have hq : s.queue = [] := by
    unfold WorkList.step at hs
    split at hs
    · assumption
    · dsimp only at hs
      split at hs <;> cases hs
  intro n hn hne
  refine (h.settled n hn hne).resolve_left ?_
  rw [hq]
  exact List.not_mem_nil

/-! ## What visits keep -/

omit [DecidableEq N] in
/-- What visits keep, steps keep. -/
theorem Invariant.step_keeps [Preorder F] {P : Dataflow.State N F → Prop} (h : Invariant a g s)
    (hput : ∀ s n x, State.Fits s a g → P s → n ∈ g.nodes → n ≠ a.start g →
      s.inputs[n]? = some x → P (s.put a n (s.gather a g n x)))
    (hp : P s.toState) (hs : WorkList.step a g s = some t) : P t.toState := by
  obtain ⟨n, queue, hq, -, ⟨-, ht, -⟩ | ⟨x, y, hx, -, ht, -⟩⟩ := step_cases h.queued hs
  · rwa [ht]
  · rw [ht]
    have hn : n ∈ g.nodes := (h.fits.inputs n).1 ⟨x, hx⟩
    exact hput _ n x h.fits hp hn (h.waits n (hq ▸ List.mem_cons_self) hn) hx

end ObjectFlow.Dataflow.WorkList
