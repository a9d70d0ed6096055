import ObjectFlow.Dataflow.Sweep
import ObjectFlow.Proofs.Dataflow.Equations

/-!
# Sweeps

A sweep is a sequence of visits (`sweep_keeps`). One that changes no output has gathered the same
outputs throughout and settles all nodes that it visits (`settled_of_unchanged`), whether or not the
transfer functions are monotone. If they are, inputs only rise from sweep to sweep
(`Rising`), although they are computed anew each time.
-/

namespace ObjectFlow.Dataflow.Sweep

open Std (ExtTreeMap TransOrd LawfulEqOrd)

variable {N F : Type} [Ord N] [TransOrd N] [DecidableEq F] {a : Analysis N F} {g : FlowGraph N}
  {s t : State N F} {n m : N} {x y : F} {l : List N}

/-- A visit of a node that has an output. -/
theorem visit_eq (hy : s.outputs[n]? = some y) : visit a g s n =
    (decide (a.transfer n (s.gather a g n a.initial) ≠ y),
      s.put a n (s.gather a g n a.initial)) := by
  unfold visit
  dsimp only
  rw [hy]
  rfl

theorem sweep_cons (hy : s.outputs[n]? = some y) : sweep a g (n :: l) s =
    (decide (a.transfer n (s.gather a g n a.initial) ≠ y) ||
        (sweep a g l (s.put a n (s.gather a g n a.initial))).1,
      (sweep a g l (s.put a n (s.gather a g n a.initial))).2) := by
  rw [sweep, visit_eq hy]

variable [LawfulEqOrd N] [DecidableEq N] [Preorder F]

section
variable (hj : a.Joins) (hl : ∀ n ∈ l, n ∈ g.nodes ∧ n ≠ a.start g)
include hj hl

/-- What visits keep, sweeps keep. -/
theorem sweep_keeps {P : State N F → Prop}
    (hput : ∀ s n, State.Fits s a g → P s → n ∈ g.nodes → n ≠ a.start g →
      P (s.put a n (s.gather a g n a.initial)))
    (hf : s.Fits a g) (hp : P s) : (sweep a g l s).2.Fits a g ∧ P (sweep a g l s).2 := by
  induction l generalizing s with
  | nil => exact ⟨hf, hp⟩
  | cons n l ih =>
    obtain ⟨hn, hne⟩ := hl n List.mem_cons_self
    obtain ⟨y, hy⟩ := (hf.outputs n).2 hn
    rw [sweep_cons hy]
    exact ih (fun m hm => hl m (List.mem_cons_of_mem n hm))
      (hf.put hn hne (State.le_gather hj)) (hput s n hf hp hn hne)

/-- A sweep without a new output leaves all outputs alone and settles what it visits. -/
theorem settled_of_unchanged (hf : s.Fits a g) (h : (sweep a g l s).1 = false) :
    (∀ p : N, (sweep a g l s).2.outputs[p]? = s.outputs[p]?) ∧
      ∀ m, m ∈ l ∨ s.Settled a g m → (sweep a g l s).2.Settled a g m := by
  induction l generalizing s with
  | nil => exact ⟨fun _ => rfl, fun m hm => hm.resolve_left List.not_mem_nil⟩
  | cons n l ih =>
    obtain ⟨hn, hne⟩ := hl n List.mem_cons_self
    obtain ⟨y, hy⟩ := (hf.outputs n).2 hn
    rw [sweep_cons hy, Bool.or_eq_false_iff, decide_eq_false_iff_not, not_not] at h
    rw [sweep_cons hy]
    obtain ⟨hout, hset⟩ := ih (fun m hm => hl m (List.mem_cons_of_mem n hm))
      (hf.put hn hne (State.le_gather hj)) h.2
    have hsame : ∀ p : N,
        (s.put a n (s.gather a g n a.initial)).outputs[p]? = s.outputs[p]? := fun p => by
      rw [State.outputs_put]
      split
      · rename_i hp
        rw [h.1, ← hp, hy]
      · rfl
    refine ⟨fun p => (hout p).trans (hsame p), fun m hm => hset m ?_⟩
    by_cases hnm : n = m
    · subst hnm
      exact .inr (State.settled_put_self hj fun p _ => hsame p)
    · rw [List.mem_cons] at hm
      rcases hm with (rfl | hm) | hm
      · exact absurd rfl hnm
      · exact .inl hm
      · exact .inr (hm.put hnm fun p _ => hsame p)

end

/-- Where sweeps end, all nodes are settled. -/
theorem sweeps_spec (hj : a.Joins) {P : State N F → Prop}
    (hput : ∀ s n, State.Fits s a g → P s → n ∈ g.nodes → n ≠ a.start g →
      P (s.put a n (s.gather a g n a.initial)))
    {fuel : Nat} (hf : s.Fits a g) (hp : P s) (h : sweeps a g fuel s = some t) :
    t.Fits a g ∧ P t ∧ ∀ n ∈ g.nodes, n ≠ a.start g → t.Settled a g n := by
  induction fuel generalizing s with
  | zero => cases h
  | succ fuel ih =>
    have hl : ∀ n ∈ a.order g, n ∈ g.nodes ∧ n ≠ a.start g := fun n => Analysis.mem_order.1
    obtain ⟨hft, hpt⟩ := sweep_keeps hj hl hput hf hp
    have hset := settled_of_unchanged hj hl hf
    unfold sweeps at h
    split at h
    · rename_i u hu
      rw [hu] at hft hpt
      exact ih hft hpt h
    · rename_i u hu
      rw [hu] at hft hpt hset
      cases h
      exact ⟨hft, hpt, fun n hn hne =>
        (hset rfl).2 n (.inl (Analysis.mem_order.2 ⟨hn, hne⟩))⟩

omit [LawfulEqOrd N] [Preorder F] in
theorem sweeps_mono {k fuel : Nat} (hk : k ≤ fuel) (h : sweeps a g k s = some t) :
    sweeps a g fuel s = some t := by
  induction k generalizing fuel s with
  | zero => cases h
  | succ k ih =>
    obtain ⟨fuel, rfl⟩ : ∃ n, fuel = n + 1 := ⟨fuel - 1, by omega⟩
    unfold sweeps at h ⊢
    split at h
    · exact ih (by omega) h
    · exact h

/-! ## Rising inputs -/

/-- No input lies above what would be gathered now, and each output is the initial one or belongs to
its input. -/
structure Rising (a : Analysis N F) (g : FlowGraph N) (s : State N F) : Prop where
  input : ∀ n ∈ g.nodes, n ≠ a.start g → s.input a n ≤ s.gather a g n a.initial
  output : ∀ n ∈ g.nodes, n ≠ a.start g →
    s.output a n = a.initial ∨ s.output a n = a.transfer n (s.input a n)

omit [DecidableEq F] in
theorem rising_start (hj : a.Joins) : Rising a g (.start a g) where
  input n hn hne := by
    rw [State.input, State.inputs_start, if_pos hn, if_neg hne, Option.getD_some]
    exact State.le_gather hj
  output n hn hne := by
    rw [State.output, State.outputs_start, if_pos hn, if_neg hne, Option.getD_some]
    exact .inl rfl

omit [DecidableEq F] in
/-- A visit with the gathered input lowers nothing that is gathered afterwards. -/
theorem gather_le_gather_put (hj : a.Joins) (hm : ∀ n ∈ g.nodes, Monotone (a.transfer n))
    (h : Rising a g s) (hn : n ∈ g.nodes) (hne : n ≠ a.start g) :
    s.gather a g m a.initial ≤
      (s.put a n (s.gather a g n a.initial)).gather a g m a.initial := by
  refine State.gather_le hj (State.le_gather hj) fun p hp y hy => ?_
  by_cases hnp : n = p
  · subst hnp
    have hy' : s.output a n = y := by rw [State.output, hy, Option.getD_some]
    rcases h.output n hn hne with ho | ho
    · rw [← hy', ho]
      exact State.le_gather hj
    · refine le_trans ?_ (State.output_le_gather hj hp (by rw [State.outputs_put, if_pos rfl]))
      rw [← hy', ho]
      exact hm n hn (h.input n hn hne)
  · exact State.output_le_gather hj hp (by rw [State.outputs_put, if_neg hnp, hy])

omit [DecidableEq F] in
theorem Rising.put (hj : a.Joins) (hm : ∀ n ∈ g.nodes, Monotone (a.transfer n)) (h : Rising a g s)
    (hn : n ∈ g.nodes) (hne : n ≠ a.start g) :
    Rising a g (s.put a n (s.gather a g n a.initial)) where
  input m hmn hmne := by
    have hg := gather_le_gather_put (m := m) hj hm h hn hne
    rw [State.input_put]
    split
    · rename_i he
      subst he
      exact hg
    · exact (h.input m hmn hmne).trans hg
  output m hmn hmne := by
    rw [State.input_put, State.output_put]
    split
    · rename_i he
      subst he
      exact .inr rfl
    · exact h.output m hmn hmne

end ObjectFlow.Dataflow.Sweep
