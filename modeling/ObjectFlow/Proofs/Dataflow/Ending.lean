import ObjectFlow.Dataflow.Solve
import ObjectFlow.Proofs.Dataflow.Descent
import ObjectFlow.Proofs.Dataflow.Sweep
import ObjectFlow.Proofs.Dataflow.WorkList

/-!
# Solvers end with the least solution

Where no facts that can arise ascend for ever, the work list becomes empty (`WorkList.exists_end`)
and sweeps stop changing outputs (`Sweep.exists_end`); where the capacity bounds how often facts
rise, they do so within their budgets (`WorkList.exists_end_of_ranked`,
`Sweep.exists_end_of_ranked`). Wherever they end, they hold the least solution
(`WorkList.least_of_end`, `Sweep.least_of_end`) if transfer functions are monotone, and all nodes
are settled in any case (`Ends.settled`).
-/

namespace ObjectFlow.Dataflow

open Std (TransOrd LawfulEqOrd)
open Finset

variable {N F : Type} [Ord N] [TransOrd N] [LawfulEqOrd N] [DecidableEq N] [DecidableEq F]
  [PartialOrder F] {a : Analysis N F} {g : FlowGraph N} {n : N} {x : F} {ρ : F → ℕ}

/-! ## The work list -/

namespace WorkList

variable {s t : State N F}

theorem arisen_step (h : Invariant a g s) (hA : s.Arisen a g) (hs : step a g s = some t) :
    t.Arisen a g := by
  refine h.step_keeps (P := (State.Arisen · a g)) (fun s n x _ hA hn _ hx => ?_) hA hs
  exact hA.put hn (State.arises_gather hA.output (hA.input n x hx))

variable (hj : a.Joins)
include hj

/-- A step passes a node over, or raises its input to a fact that can arise. The queue gets longer
only if the node has a new output. -/
theorem step_rises (h : Invariant a g s) (hA : s.Arisen a g) (hs : step a g s = some t) :
    (t.toState = s.toState ∧ t.queue.length < s.queue.length) ∨
      ∃ n x, n ∈ a.order g ∧ a.Arises g x ∧ s.input a n ≤ x ∧ t.toState = s.toState.put a n x ∧
        t.queue.length < s.queue.length + (a.targets g n).length ∧
        (s.output a n = a.transfer n x → t.queue.length < s.queue.length) := by
  obtain ⟨n, queue, hq, -, ⟨-, ht, htq⟩ | ⟨x, y, hx, hy, ht, hcall⟩⟩ := step_cases h.queued hs
  · refine .inl ⟨ht, ?_⟩
    rw [htq, hq]
    exact Nat.lt_succ_self _
  · have hnodes : n ∈ g.nodes := (h.fits.inputs n).1 ⟨x, hx⟩
    have hn : n ∈ a.order g :=
      Analysis.mem_order.2 ⟨hnodes, h.waits n (hq ▸ List.mem_cons_self) hnodes⟩
    have hix : s.input a n = x := by rw [State.input, hx, Option.getD_some]
    have hoy : s.output a n = y := by rw [State.output, hy, Option.getD_some]
    refine .inr ⟨n, s.gather a g n x, hn, State.arises_gather hA.output (hA.input n x hx),
      hix ▸ State.le_gather hj, ht, ?_⟩
    rw [hq, List.length_cons, hoy]
    rcases hcall with ⟨-, htq⟩ | ⟨hne, -, hlen⟩
    · rw [htq]
      exact ⟨by omega, fun _ => Nat.lt_succ_self _⟩
    · exact ⟨by omega, fun ho => absurd ho.symm hne⟩

/-- A step lowers the rank, or it leaves the facts alone and takes a node from the queue. -/
theorem rank_step (h : Invariant a g s) (hA : s.Arisen a g) (hs : step a g s = some t) :
    rank a g t.toState < rank a g s.toState ∨
      (rank a g t.toState = rank a g s.toState ∧ t.queue.length < s.queue.length) := by
  obtain ⟨ht, hlen⟩ | ⟨n, x, hn, hx, hle, ht, -, hlen⟩ := step_rises hj h hA hs
  · exact .inr ⟨by rw [ht], hlen⟩
  · rw [ht]
    exact (rank_put hA hn hx hle).imp_right fun ⟨heq, ho⟩ => ⟨heq, hlen ho⟩

/-- A step lowers the cost by as much as it can prolong the queue. -/
theorem cost_step (hρ : Ranked a g ρ) (h : Invariant a g s) (hA : s.Arisen a g)
    (hs : step a g s = some t) :
    cost a g ρ (fun n => (a.targets g n).length) t.toState + t.queue.length <
      cost a g ρ (fun n => (a.targets g n).length) s.toState + s.queue.length := by
  obtain ⟨ht, hlen⟩ | ⟨n, x, hn, hx, hle, ht, hlong, hlen⟩ := step_rises hj h hA hs
  · rw [ht]
    omega
  · rw [ht]
    rcases cost_put hρ (fun n => (a.targets g n).length) hA hn hx hle with hlt | ⟨heq, ho⟩
    · omega
    · have := hlen ho
      omega

variable (hr : a.Unentered g)
include hr

/-- The work list becomes empty where no facts that can arise ascend for ever. -/
theorem exists_end [WellFoundedGT {x // a.Arises g x}] :
    ∃ k s, iterate (step a g) k (.start a g) = some s := by
  let μ : State N F → (_ ×ₗ ℕ) ×ₗ ℕ := fun s => toLex (rank a g s.toState, s.queue.length)
  refine exists_iterate_of_wf (p := fun s => Invariant a g s ∧ s.Arisen a g)
    (r := InvImage (· < ·) μ) (InvImage.wf μ wellFounded_lt)
    (fun s t h hs => ⟨h.1.step hr hj hs, arisen_step h.1 h.2 hs⟩) (fun s t h hs => ?_)
    ⟨invariant_start, State.arisen_start⟩
  exact Prod.Lex.toLex_lt_toLex.2 (rank_step hj h.1 h.2 hs)

/-- The work list becomes empty within its budget. -/
theorem exists_end_of_ranked (hρ : Ranked a g ρ) :
    ∃ s, iterate (step a g) (budget a g) (.start a g) = some s := by
  refine exists_iterate (p := fun s => Invariant a g s ∧ s.Arisen a g)
    (fun s t h hs => ⟨h.1.step hr hj hs, arisen_step h.1 h.2 hs⟩)
    (fun s t h hs => cost_step hj hρ h.1 h.2 hs) ⟨invariant_start, State.arisen_start⟩ ?_
  have hcost := cost_le (s := (State.start a g).toState) (a := a) (g := g) (ρ := ρ)
    fun n => (a.targets g n).length
  have hlen : (a.order g).length ≤ g.nodes.length := by
    unfold Analysis.order
    split
    · exact List.length_filter_le _ _
    · exact (List.length_filter_le _ _).trans (Nat.le_of_eq List.length_reverse)
  unfold budget
  rw [List.length_flatMap, Nat.add_mul]
  rw [Nat.add_mul] at hcost
  simp only [State.start] at hcost ⊢
  omega

/-- Where the work list is empty, the state holds the least solution. -/
theorem least_of_end (hm : ∀ n ∈ g.nodes, Monotone (a.transfer n)) {fuel : ℕ}
    (h : iterate (step a g) fuel (.start a g) = some s) :
    s.Fits a g ∧ Least a g (s.input a) (s.output a) := by
  have hinv : Invariant a g s :=
    iterate_invariant (fun s t h hs => h.step hr hj hs) invariant_start h
  have hset := hinv.settled_of_stopped (step_eq_none_of_iterate h)
  refine ⟨hinv.fits, State.least_of_settled hj hm hinv.fits hset fun inp out hb => ?_⟩
  refine (iterate_invariant (p := fun s => Invariant a g s ∧ s.Below a g inp out)
    (fun s t h hs => ⟨h.1.step hr hj hs, ?_⟩) ⟨invariant_start, State.below_start hb⟩ h).2
  refine h.1.step_keeps (P := (State.Below · a g inp out)) (fun s n x hf hB hn hne hx => ?_) h.2 hs
  exact hB.put hb hm hn hne (hB.gather_le hf hj hb hn hne (hB.input n x hx))

omit [LawfulEqOrd N] [PartialOrder F] hj hr in
/-- More fuel keeps a solution. -/
theorem run_mono {k fuel : ℕ} {r : Solution N F} (hk : k ≤ fuel) (h : run a g k = some r) :
    run a g fuel = some r := by
  obtain ⟨s, hs, rfl⟩ := Option.map_eq_some_iff.1 h
  exact congrArg (Option.map _) (iterate_mono hk hs)

end WorkList

/-! ## Sweeps -/

namespace Sweep

variable {s t : State N F} {l : List N}

/-- What visits of a sweep keep. -/
structure Invariant (a : Analysis N F) (g : FlowGraph N) (s : State N F) : Prop where
  fits : s.Fits a g
  arisen : s.Arisen a g
  rising : Rising a g s

omit [LawfulEqOrd N] [DecidableEq F] in
/-- The input that a visit gathers is one to which the input can rise. -/
theorem Invariant.visit (h : Invariant a g s) (hn : n ∈ a.order g) :
    a.Arises g (s.gather a g n a.initial) ∧ s.input a n ≤ s.gather a g n a.initial := by
  obtain ⟨hnodes, hne⟩ := Analysis.mem_order.1 hn
  exact ⟨State.arises_gather h.arisen.output .initial, h.rising.input n hnodes hne⟩

/-- A visit of a sweep lowers the rank or changes nothing. -/
theorem Invariant.rank_put (h : Invariant a g s) (hn : n ∈ a.order g) :
    rank a g (s.put a n (s.gather a g n a.initial)) < rank a g s ∨
      (rank a g (s.put a n (s.gather a g n a.initial)) = rank a g s ∧
        s.output a n = a.transfer n (s.gather a g n a.initial)) := by
  obtain ⟨hx, hle⟩ := h.visit hn
  exact Dataflow.rank_put h.arisen hn hx hle

/-- A visit of a sweep lowers the cost or changes nothing. -/
theorem Invariant.cost_put (hρ : Ranked a g ρ) (h : Invariant a g s) (hn : n ∈ a.order g) :
    cost a g ρ (fun _ => 1) (s.put a n (s.gather a g n a.initial)) < cost a g ρ (fun _ => 1) s ∨
      (cost a g ρ (fun _ => 1) (s.put a n (s.gather a g n a.initial)) =
          cost a g ρ (fun _ => 1) s ∧
        s.output a n = a.transfer n (s.gather a g n a.initial)) := by
  obtain ⟨hx, hle⟩ := h.visit hn
  exact Dataflow.cost_put hρ (fun _ => 1) h.arisen hn hx hle

variable (hj : a.Joins)
include hj

omit [DecidableEq F] in
theorem invariant_start : Invariant a g (.start a g) :=
  ⟨State.fits_start, State.arisen_start, rising_start hj⟩

/-- A sweep gives the nodes that it visits the outputs that belong to their inputs. -/
theorem output_sweep (hl : ∀ n ∈ l, n ∈ g.nodes ∧ n ≠ a.start g) (hf : s.Fits a g)
    (h : n ∈ l ∨ s.output a n = a.transfer n (s.input a n)) :
    (sweep a g l s).2.output a n = a.transfer n ((sweep a g l s).2.input a n) := by
  induction l generalizing s with
  | nil => exact h.resolve_left List.not_mem_nil
  | cons m l ih =>
    obtain ⟨hm, hne⟩ := hl m List.mem_cons_self
    rw [sweep_cons (hf.outputs_eq hm)]
    refine ih (fun k hk => hl k (List.mem_cons_of_mem m hk))
      (hf.put hm hne (State.le_gather hj)) ?_
    rw [State.output_put, State.input_put]
    by_cases hmn : m = n
    · rw [if_pos hmn, if_pos hmn, hmn]
      exact .inr rfl
    · rw [if_neg hmn, if_neg hmn]
      exact h.imp_left fun h => (List.mem_cons.1 h).resolve_left (Ne.symm hmn)

variable (hm : ∀ n ∈ g.nodes, Monotone (a.transfer n))
include hm

omit [DecidableEq F] in
theorem Invariant.put (h : Invariant a g s) (hn : n ∈ g.nodes) (hne : n ≠ a.start g) :
    Invariant a g (s.put a n (s.gather a g n a.initial)) where
  fits := h.fits.put hn hne (State.le_gather hj)
  arisen := h.arisen.put hn (State.arises_gather h.arisen.output .initial)
  rising := h.rising.put hj hm hn hne

theorem Invariant.sweep (h : Invariant a g s) : Invariant a g (sweep a g (a.order g) s).2 :=
  (sweep_keeps hj (fun _ => Analysis.mem_order.1)
    (fun _ _ _ h hn hne => Invariant.put hj hm h hn hne) h.fits h).2

/-- A sweep lowers what visits lower unless they change nothing. -/
theorem sweep_falls {α : Type} [Preorder α] {μ : State N F → α}
    (hμ : ∀ s n, Invariant a g s → n ∈ a.order g →
      μ (s.put a n (s.gather a g n a.initial)) < μ s ∨
        (μ (s.put a n (s.gather a g n a.initial)) = μ s ∧
          s.output a n = a.transfer n (s.gather a g n a.initial)))
    (hl : ∀ n ∈ l, n ∈ a.order g) (h : Invariant a g s) :
    μ (Sweep.sweep a g l s).2 < μ s ∨
      (μ (Sweep.sweep a g l s).2 = μ s ∧ (Sweep.sweep a g l s).1 = false) := by
  induction l generalizing s with
  | nil => exact .inr ⟨rfl, rfl⟩
  | cons n l ih =>
    have hn := hl n List.mem_cons_self
    obtain ⟨hnodes, hne⟩ := Analysis.mem_order.1 hn
    have ih := ih (fun m hm => hl m (List.mem_cons_of_mem n hm)) (h.put hj hm hnodes hne)
    rw [sweep_cons (h.fits.outputs_eq hnodes)]
    rcases hμ s n h hn with hlt | ⟨heq, hsame⟩
    · refine .inl ?_
      rcases ih with ih | ⟨ih, -⟩
      · exact ih.trans hlt
      · exact ih ▸ hlt
    · rw [decide_eq_false (not_not.2 hsame.symm), Bool.false_or, ← heq]
      exact ih

/-- Sweeps end where no facts that can arise ascend for ever. -/
theorem exists_end [WellFoundedGT {x // a.Arises g x}] :
    ∃ k s, sweeps a g k (.start a g) = some s := by
  suffices key : ∀ s : State N F, Invariant a g s → ∃ k t, sweeps a g k s = some t from
    key _ (invariant_start hj)
  intro s
  induction s using (InvImage.wf (rank a g) wellFounded_lt).induction with
  | _ s ih =>
    intro h
    have hfall := sweep_falls (μ := rank a g) hj hm (fun _ _ h hn => h.rank_put hn)
      (fun _ hn => hn) h
    have hnext := h.sweep hj hm
    rcases hsw : sweep a g (a.order g) s with ⟨_ | _, u⟩
    · exact ⟨1, u, by rw [sweeps, hsw]⟩
    · rw [hsw] at hfall hnext
      rcases hfall with hlt | ⟨-, hf⟩
      · obtain ⟨k, t, ht⟩ := ih u hlt hnext
        exact ⟨k + 1, t, by rw [sweeps, hsw]; exact ht⟩
      · cases hf

/-- Sweeps that lower the cost end. -/
theorem exists_end_of_cost (hρ : Ranked a g ρ) {fuel : ℕ} (h : Invariant a g s)
    (hc : cost a g ρ (fun _ => 1) s < fuel) : ∃ t, sweeps a g fuel s = some t := by
  induction fuel generalizing s with
  | zero => omega
  | succ fuel ih =>
    have hfall := sweep_falls (μ := cost a g ρ fun _ => 1) hj hm
      (fun _ _ h hn => h.cost_put hρ hn) (fun _ hn => hn) h
    have hnext := h.sweep hj hm
    rw [sweeps]
    rcases hsw : sweep a g (a.order g) s with ⟨_ | _, u⟩
    · exact ⟨u, rfl⟩
    · rw [hsw] at hfall hnext
      rcases hfall with hlt | ⟨-, hf⟩
      · exact ih hnext (by dsimp only at hlt; omega)
      · cases hf

/-- Sweeps end within their budget. -/
theorem exists_end_of_ranked (hρ : Ranked a g ρ) :
    ∃ s, sweeps a g (budget a g) (.start a g) = some s := by
  have hstart := invariant_start (g := g) hj
  have hnext := hstart.sweep hj hm
  have hown : ∀ n ∈ a.order g, _ := fun n hn =>
    output_sweep (a := a) (g := g) hj (fun _ => Analysis.mem_order.1) hstart.fits (.inl hn)
  have hcost := cost_le_of_settled (ρ := ρ) hown
  have hpow : a.capacity * g.nodes.length < 2 ^ (a.capacity * g.nodes.length) :=
    Nat.lt_two_pow_self
  rw [budget, Nat.pow_eq, sweeps]
  rcases hsw : sweep a g (a.order g) (.start a g) with ⟨_ | _, u⟩
  · exact ⟨u, rfl⟩
  · rw [hsw] at hnext hcost
    exact exists_end_of_cost hj hm hρ hnext (by dsimp only at hcost; omega)

/-- Where sweeps end, the state holds the least solution. -/
theorem least_of_end {fuel : ℕ} (h : sweeps a g fuel (.start a g) = some s) :
    s.Fits a g ∧ Least a g (s.input a) (s.output a) := by
  obtain ⟨hf, -, hset⟩ := sweeps_spec (P := fun _ => True) hj (fun _ _ _ _ _ _ => trivial)
    State.fits_start trivial h
  refine ⟨hf, State.least_of_settled hj hm hf hset fun inp out hb => ?_⟩
  refine (sweeps_spec (P := (State.Below · a g inp out)) hj (fun s n hf hB hn hne => ?_)
    State.fits_start (State.below_start hb) h).2.1
  exact hB.put hb hm hn hne (hB.gather_le hf hj hb hn hne (hb.initial n hn hne))

omit [LawfulEqOrd N] [PartialOrder F] hj hm in
/-- More sweeps keep a solution. -/
theorem run_mono {k fuel : ℕ} {r : Solution N F} (hk : k ≤ fuel) (h : run a g k = some r) :
    run a g fuel = some r := by
  obtain ⟨s, hs, rfl⟩ := Option.map_eq_some_iff.1 h
  exact congrArg (Option.map _) (sweeps_mono hk hs)

end Sweep

/-! ## Either solver -/

/-- A solver ends with this solution, however long it takes. -/
def Ends (kind : SolverKind) (a : Analysis N F) (g : FlowGraph N) (r : Solution N F) : Prop :=
  match kind with
  | .workList => ∃ fuel, WorkList.run a g fuel = some r
  | .sweep => ∃ fuel, Sweep.run a g fuel = some r

omit [LawfulEqOrd N] [PartialOrder F] in
theorem ends_of_solve {kind : SolverKind} {r : Solution N F} (h : solve kind a g = some r) :
    Ends kind a g r := by
  cases kind with
  | workList => exact ⟨_, h⟩
  | sweep => exact ⟨_, h⟩

omit [LawfulEqOrd N] [PartialOrder F] in
/-- A solver ends with one solution. -/
theorem Ends.unique {kind : SolverKind} {r r' : Solution N F} (h : Ends kind a g r)
    (h' : Ends kind a g r') : r = r' := by
  cases kind with
  | workList =>
    obtain ⟨m, hm⟩ := h
    obtain ⟨k, hk⟩ := h'
    exact Option.some.inj ((WorkList.run_mono (Nat.le_max_left m k) hm).symm.trans
      (WorkList.run_mono (Nat.le_max_right m k) hk))
  | sweep =>
    obtain ⟨m, hm⟩ := h
    obtain ⟨k, hk⟩ := h'
    exact Option.some.inj ((Sweep.run_mono (Nat.le_max_left m k) hm).symm.trans
      (Sweep.run_mono (Nat.le_max_right m k) hk))

/-- Wherever a solver ends, all nodes are settled, whether or not transfer functions are monotone. -/
theorem Ends.settled (hr : a.Rooted g) (hj : a.Joins) {kind : SolverKind} {r : Solution N F}
    (h : Ends kind a g r) : ∃ s : State N F, r = s.solution a.direction ∧ s.Fits a g ∧
      ∀ n ∈ g.nodes, n ≠ a.start g → s.Settled a g n := by
  cases kind with
  | workList =>
    obtain ⟨fuel, h⟩ := h
    obtain ⟨s, hs, rfl⟩ := Option.map_eq_some_iff.1 h
    have hinv := iterate_invariant (p := WorkList.Invariant a g)
      (fun s t h hs => h.step hr hj hs) WorkList.invariant_start hs
    exact ⟨s.toState, rfl, hinv.fits, hinv.settled_of_stopped (step_eq_none_of_iterate hs)⟩
  | sweep =>
    obtain ⟨fuel, h⟩ := h
    obtain ⟨s, hs, rfl⟩ := Option.map_eq_some_iff.1 h
    obtain ⟨hf, -, hset⟩ := Sweep.sweeps_spec (P := fun _ => True) hj
      (fun _ _ _ _ _ _ => trivial) State.fits_start trivial hs
    exact ⟨s, rfl, hf, hset⟩

end ObjectFlow.Dataflow
