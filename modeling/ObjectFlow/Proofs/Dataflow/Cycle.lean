import Mathlib.Data.Fintype.Pigeonhole
import Mathlib.Logic.Function.Iterate
import Mathlib.SetTheory.Cardinal.Finite
import ObjectFlow.Proofs.Dataflow.Ending

/-!
# Sweeps that never end

A sweep depends on the outputs that it finds and on nothing else (`sweep_congr`), and a run ends with
the first sweep that changes nothing (`run_eq_after`). So sweeps that change something until they
meet outputs once more go on for ever (`run_eq_none_of_cycle`). Where the capacity bounds the number
of facts, sweeps that do not end within their budget have met outputs once more (`exists_cycle`): for
such an analysis sweeps end if and only if `solve` gives an answer (`ends_sweep_iff`).
-/

namespace ObjectFlow.Dataflow

open Std (ExtTreeMap TransOrd LawfulEqOrd)

variable {N F : Type} [Ord N] [TransOrd N] {a : Analysis N F} {g : FlowGraph N} {s t : State N F}
  {n : N}

namespace Sweep

variable [DecidableEq F] {l : List N}

/-! ## What a sweep depends on -/

theorem visit_congr (h : s.outputs = t.outputs) : (visit a g s n).1 = (visit a g t n).1 ∧
    (visit a g s n).2.outputs = (visit a g t n).2.outputs := by
  have hgather : s.gather a g n a.initial = t.gather a g n a.initial := by
    rw [State.gather, State.gather, h]
  unfold visit
  dsimp only
  rw [hgather, h]
  split
  · exact ⟨rfl, rfl⟩
  · exact ⟨rfl, rfl⟩

/-- What a sweep changes depends on the outputs only. -/
theorem sweep_congr (h : s.outputs = t.outputs) : (sweep a g l s).1 = (sweep a g l t).1 ∧
    (sweep a g l s).2.outputs = (sweep a g l t).2.outputs := by
  induction l generalizing s t with
  | nil => exact ⟨rfl, h⟩
  | cons n l ih =>
    obtain ⟨hhere, hout⟩ := visit_congr (a := a) (g := g) (n := n) h
    obtain ⟨hthere, hrest⟩ := ih hout
    unfold sweep
    dsimp only
    rw [hhere, hthere]
    exact ⟨rfl, hrest⟩

/-! ## Sequences of sweeps -/

variable [DecidableEq N] {i j k : ℕ}

/-- The state after `k` sweeps, whether or not they change anything. -/
def after (a : Analysis N F) (g : FlowGraph N) (k : ℕ) : State N F :=
  (fun s => (sweep a g (a.order g) s).2)^[k] (.start a g)

/-- Whether the sweep after `k` others changes anything. -/
def changes (a : Analysis N F) (g : FlowGraph N) (k : ℕ) : Bool :=
  (sweep a g (a.order g) (after a g k)).1

theorem after_succ : after a g (k + 1) = (sweep a g (a.order g) (after a g k)).2 :=
  Function.iterate_succ_apply' _ _ _

theorem sweeps_after_succ {fuel : ℕ} : sweeps a g (fuel + 1) (after a g k) =
    if changes a g k then sweeps a g fuel (after a g (k + 1)) else some (after a g (k + 1)) := by
  rw [sweeps, after_succ, changes]
  split
  · rename_i hsw
    rw [hsw, if_pos rfl]
  · rename_i hsw
    rw [hsw, if_neg Bool.false_ne_true]

theorem sweeps_after_eq_none_iff {fuel : ℕ} :
    sweeps a g fuel (after a g k) = none ↔ ∀ j < fuel, changes a g (k + j) = true := by
  induction fuel generalizing k with
  | zero => simp [sweeps]
  | succ fuel ih =>
    rw [sweeps_after_succ]
    split
    · rename_i hk
      refine ih.trans ⟨fun h j hj => ?_, fun h j hj => ?_⟩
      · cases j with
        | zero => exact hk
        | succ j => rw [← Nat.succ_add_eq_add_succ]; exact h j (Nat.lt_of_succ_lt_succ hj)
      · rw [Nat.succ_add_eq_add_succ]
        exact h (j + 1) (Nat.succ_lt_succ hj)
    · rename_i hk
      exact iff_of_false (by simp) fun h => hk (h 0 (Nat.succ_pos fuel))

/-- A run gives no answer as long as every sweep changes something. -/
theorem run_eq_none_iff {fuel : ℕ} : run a g fuel = none ↔ ∀ k < fuel, changes a g k = true := by
  rw [run, Option.map_eq_none_iff]
  refine (sweeps_after_eq_none_iff (k := 0)).trans ?_
  simp only [Nat.zero_add]

/-- A run ends with the first sweep that changes nothing. -/
theorem run_eq_after {fuel : ℕ} (hk : k < fuel) (h : ∀ j < k, changes a g j = true)
    (hend : changes a g k = false) :
    run a g fuel = some ((after a g (k + 1)).solution a.direction) := by
  suffices hsw : ∀ m i fuel, m < fuel → i + m = k →
      sweeps a g fuel (after a g i) = some (after a g (k + 1)) from
    congrArg (Option.map _) (hsw k 0 fuel hk (Nat.zero_add k))
  intro m
  induction m with
  | zero =>
    rintro i (_ | fuel) hfuel rfl
    · cases hfuel
    · exact sweeps_after_succ.trans (if_neg (ne_true_of_eq_false hend))
  | succ m ih =>
    rintro i (_ | fuel) hfuel rfl
    · cases hfuel
    · rw [sweeps_after_succ, if_pos (h i (by omega))]
      exact ih (i + 1) fuel (by omega) (by omega)

/-! ## Cycles -/

section
variable (hij : i < j) (hout : (after a g i).outputs = (after a g j).outputs)
include hij hout

/-- All that is ever found has been found before the cycle closes. -/
theorem exists_outputs_eq (k : ℕ) :
    ∃ m < j, (after a g k).outputs = (after a g m).outputs := by
  induction k with
  | zero => exact ⟨0, by omega, rfl⟩
  | succ k ih =>
    obtain ⟨m, hm, he⟩ := ih
    have hnext : (after a g (k + 1)).outputs = (after a g (m + 1)).outputs := by
      rw [after_succ, after_succ]
      exact (sweep_congr he).2
    by_cases hmj : m + 1 = j
    · exact ⟨i, hij, hnext.trans (hmj ▸ hout.symm)⟩
    · exact ⟨m + 1, by omega, hnext⟩

/-- Sweeps that change something until outputs come back go on for ever. -/
theorem run_eq_none_of_cycle (h : ∀ k < j, changes a g k = true) (fuel : ℕ) :
    run a g fuel = none := by
  refine run_eq_none_iff.2 fun k _ => ?_
  obtain ⟨m, hm, he⟩ := exists_outputs_eq hij hout k
  exact (sweep_congr he).1.trans (h m hm)

end

end Sweep

/-! ## Finitely many facts -/

variable [LawfulEqOrd N] [PartialOrder F]

namespace Sweep

variable [DecidableEq N] [DecidableEq F]

omit [PartialOrder F] in
/-- A sweep that would give every node the output that it has changes nothing. -/
theorem sweep_eq_false {l : List N}
    (h : ∀ n ∈ l, s.outputs[n]? = some (a.transfer n (s.gather a g n a.initial))) :
    (sweep a g l s).1 = false := by
  induction l generalizing s with
  | nil => rfl
  | cons n l ih =>
    have hn := h n List.mem_cons_self
    have hsame : (s.put a n (s.gather a g n a.initial)).outputs = s.outputs := by
      refine ExtTreeMap.ext_getElem? fun p => ?_
      rw [State.outputs_put]
      split
      · rename_i hp
        rw [← hp, hn]
      · rfl
    rw [sweep_cons hn, decide_eq_false (not_not.2 rfl), Bool.false_or, (sweep_congr hsame).1]
    exact ih fun p hp => h p (List.mem_cons_of_mem n hp)

variable (hj : a.Joins)
include hj

theorem fits_after (k : ℕ) : (after a g k).Fits a g ∧ (after a g k).Arisen a g := by
  induction k with
  | zero => exact ⟨State.fits_start, State.arisen_start⟩
  | succ k ih =>
    rw [after_succ]
    refine sweep_keeps (P := (State.Arisen · a g)) hj (fun _ => Analysis.mem_order.1)
      (fun s n _ hA hn _ => hA.put hn ?_) ih.1 ih.2
    exact State.arises_gather hA.output .initial

/-- A sweep after which the output of a node differs has changed something. -/
theorem changes_of_ne {k : ℕ} (h : (after a g (k + 1)).output a n ≠ (after a g k).output a n) :
    changes a g k = true := by
  by_contra hk
  obtain ⟨hout, -⟩ := settled_of_unchanged hj (fun _ => Analysis.mem_order.1) (fits_after hj k).1
    (Bool.eq_false_iff.2 hk)
  refine h ?_
  rw [after_succ, State.output, hout, State.output]

theorem changes_eq_false {k : ℕ} (h : ∀ n ∈ a.order g,
    a.transfer n ((after a g k).gather a g n a.initial) = (after a g k).output a n) :
    changes a g k = false := by
  have hf := (fits_after (g := g) hj k).1
  refine sweep_eq_false fun n hn => ?_
  rw [h n hn]
  exact hf.outputs_eq (Analysis.mem_order.1 hn).1

variable [Finite {x // a.Arises g x}] (hcard : Nat.card {x // a.Arises g x} ≤ 2 ^ a.capacity)
include hcard

/-- There are fewer outputs than sweeps in the budget, so some come back. -/
theorem exists_cycle : ∃ i j, i < j ∧ j < budget a g ∧
    (after a g i).outputs = (after a g j).outputs := by
  have := Fintype.ofFinite {x // a.Arises g x}
  rw [Nat.card_eq_fintype_card] at hcard
  have hfits := fits_after (g := g) hj
  let outputs : Fin (budget a g) → {n // n ∈ g.nodes.toFinset} → {x // a.Arises g x} :=
    fun k n => ⟨(after a g k).output a n,
      (hfits k).2.output n _ ((hfits k).1.outputs_eq (List.mem_toFinset.1 n.2))⟩
  have hlt : Fintype.card ({n // n ∈ g.nodes.toFinset} → {x // a.Arises g x}) <
      Fintype.card (Fin (budget a g)) := by
    rw [Fintype.card_fun, Fintype.card_coe, Fintype.card_fin]
    calc Fintype.card {x // a.Arises g x} ^ g.nodes.toFinset.card
        ≤ (2 ^ a.capacity) ^ g.nodes.toFinset.card := Nat.pow_le_pow_left hcard _
      _ ≤ (2 ^ a.capacity) ^ g.nodes.length :=
        Nat.pow_le_pow_right (Nat.two_pow_pos _) (List.toFinset_card_le _)
      _ = 2 ^ (a.capacity * g.nodes.length) := (Nat.pow_mul _ _ _).symm
      _ < budget a g := by rw [budget, Nat.pow_eq]; omega
  obtain ⟨i, j, hne, he⟩ := Fintype.exists_ne_map_eq_of_card_lt outputs hlt
  have hout : (after a g i).outputs = (after a g j).outputs := by
    refine (hfits i).1.outputs_ext (hfits j).1 fun n hn => ?_
    exact congrArg Subtype.val (congrFun he ⟨n, List.mem_toFinset.2 hn⟩)
  rcases lt_or_gt_of_ne hne with hij | hij
  · exact ⟨i, j, hij, j.2, hout⟩
  · exact ⟨j, i, hij, i.2, hout.symm⟩

/-- Sweeps that do not end within their budget never end. -/
theorem run_eq_none_of_solve (h : solve .sweep a g = none) (fuel : ℕ) : run a g fuel = none := by
  obtain ⟨i, j, hij, hj, hout⟩ := exists_cycle hj hcard
  refine run_eq_none_of_cycle hij hout (fun k hk => ?_) fuel
  exact run_eq_none_iff.1 h k (hk.trans hj)

/-- Wherever sweeps end, they do so within their budget. -/
theorem ends_sweep_iff {r : Solution N F} : Ends .sweep a g r ↔ solve .sweep a g = some r := by
  refine ⟨fun h => ?_, ends_of_solve⟩
  cases hr : solve .sweep a g with
  | none =>
    obtain ⟨fuel, hfuel⟩ := h
    rw [run_eq_none_of_solve hj hcard hr fuel] at hfuel
    cases hfuel
  | some r' => rw [h.unique (ends_of_solve hr)]

end Sweep

end ObjectFlow.Dataflow
