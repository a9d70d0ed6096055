import Mathlib.Algebra.BigOperators.Ring.Finset
import Mathlib.Algebra.Order.BigOperators.Group.Finset
import Mathlib.Data.DFinsupp.WellFounded
import ObjectFlow.Proofs.Dataflow.Equations

/-!
# What falls during a run

A visit raises the input of its node, or gives it the output that belongs to its input, or changes
nothing. `rank_put` says so of the `rank` of a state, which descends in a well-founded order where
no facts that can arise ascend for ever; `cost_put` of its `cost`, a number where the capacity of the
analysis bounds how often facts rise.
-/

namespace ObjectFlow.Dataflow

open Std (TransOrd LawfulEqOrd)
open Finset

variable {N F : Type} [Ord N] [TransOrd N] [LawfulEqOrd N] [DecidableEq N] [DecidableEq F]
  [PartialOrder F] {a : Analysis N F} {g : FlowGraph N} {s t : State N F} {n : N} {x : F}
  {ρ : F → ℕ}

/-! ## Descent -/

open Classical in
/-- The inputs of the nodes to be solved; the higher the facts, the lower the level. -/
noncomputable def level (a : Analysis N F) (g : FlowGraph N) (inp : N → F)
    (n : {n // n ∈ a.order g}) : {x // a.Arises g x}ᵒᵈ :=
  OrderDual.toDual (if h : a.Arises g (inp n) then ⟨inp n, h⟩ else ⟨a.initial, .initial⟩)

/-- The nodes whose outputs do not belong to their inputs. -/
def unsettled (a : Analysis N F) (g : FlowGraph N) (inp out : N → F) : Finset N :=
  {n ∈ (a.order g).toFinset | out n ≠ a.transfer n (inp n)}

/-- What falls with every visit that changes something. -/
noncomputable def rank (a : Analysis N F) (g : FlowGraph N) (s : State N F) :
    ({n // n ∈ a.order g} → {x // a.Arises g x}ᵒᵈ) ×ₗ ℕ :=
  toLex (level a g (s.input a), #(unsettled a g (s.input a) (s.output a)))

omit [LawfulEqOrd N] [DecidableEq N] [DecidableEq F] [PartialOrder F] in
theorem State.Arisen.arises_input (h : s.Arisen a g) (n : N) : a.Arises g (s.input a n) := by
  unfold State.input
  cases hx : s.inputs[n]? with
  | none => exact .initial
  | some x => exact h.input n x hx

omit [LawfulEqOrd N] [DecidableEq F] in
theorem level_le (hs : s.Arisen a g) (ht : t.Arisen a g) {n : {n // n ∈ a.order g}} :
    level a g (t.input a) n ≤ level a g (s.input a) n ↔ s.input a n ≤ t.input a n := by
  rw [level, level, dif_pos (hs.arises_input n), dif_pos (ht.arises_input n)]
  rfl

omit [DecidableEq F] [PartialOrder F] in
/-- A visit changes no input if the node has its input already. -/
theorem input_put_same (h : s.input a n = x) : (s.put a n x).input a = s.input a := by
  funext m
  rw [State.input_put]
  split
  · rename_i hm
    rw [← hm, h]
  · rfl

omit [DecidableEq F] [PartialOrder F] in
theorem output_put_same (h : s.output a n = a.transfer n x) :
    (s.put a n x).output a = s.output a := by
  funext m
  rw [State.output_put]
  split
  · rename_i hm
    rw [← hm, h]
  · rfl

/-- A visit raises the input of its node, or gives it the output that belongs to its input, or
changes nothing. -/
theorem rank_put (hA : s.Arisen a g) (hn : n ∈ a.order g) (hx : a.Arises g x)
    (hle : s.input a n ≤ x) : rank a g (s.put a n x) < rank a g s ∨
      (rank a g (s.put a n x) = rank a g s ∧ s.output a n = a.transfer n x) := by
  have hput : (s.put a n x).Arisen a g := hA.put (Analysis.mem_order.1 hn).1 hx
  unfold rank
  rw [Prod.Lex.toLex_lt_toLex]
  by_cases hi : s.input a n = x
  · by_cases ho : s.output a n = a.transfer n x
    · exact .inr ⟨by rw [input_put_same hi, output_put_same ho], ho⟩
    · dsimp only
      rw [input_put_same hi]
      refine .inl (.inr ⟨rfl, card_lt_card ⟨fun m hm => ?_, fun h => ?_⟩⟩)
      · simp only [unsettled, mem_filter, State.output_put] at hm ⊢
        refine ⟨hm.1, ?_⟩
        by_cases hnm : n = m
        · subst hnm
          rw [hi]
          exact ho
        · rw [if_neg hnm] at hm
          exact hm.2
      · have := h (mem_filter.2 ⟨List.mem_toFinset.2 hn, by rwa [hi]⟩)
        simp [unsettled, State.output_put, hi] at this
  · refine .inl (.inl (Pi.lt_def.2 ⟨fun m => ?_, ⟨n, hn⟩, ?_⟩))
    · rw [level_le hA hput, State.input_put]
      split
      · rename_i hm
        rw [← hm]
        exact hle
      · exact le_rfl
    · rw [lt_iff_le_not_ge, level_le hA hput, level_le hput hA, State.input_put, if_pos rfl]
      exact ⟨hle, fun hge => hi (le_antisymm hle hge)⟩

/-! ## Cost -/

/-- Facts rise at most as often as the capacity says: `ρ` counts how far a fact has risen. -/
structure Ranked (a : Analysis N F) (g : FlowGraph N) (ρ : F → ℕ) : Prop where
  le : ∀ x, a.Arises g x → ρ x ≤ a.capacity
  lt : ∀ x y, a.Arises g x → a.Arises g y → x < y → ρ x < ρ y

/-- How often nodes can still change, each weighed. -/
def cost (a : Analysis N F) (g : FlowGraph N) (ρ : F → ℕ) (w : N → ℕ) (s : State N F) : ℕ :=
  ∑ n ∈ (a.order g).toFinset, (a.capacity - ρ (s.input a n) +
    if s.output a n = a.transfer n (s.input a n) then 0 else 1) * w n

theorem cost_put (hρ : Ranked a g ρ) (w : N → ℕ) (hA : s.Arisen a g)
    (hn : n ∈ a.order g) (hx : a.Arises g x) (hle : s.input a n ≤ x) :
    cost a g ρ w (s.put a n x) + w n ≤ cost a g ρ w s ∨
      (cost a g ρ w (s.put a n x) = cost a g ρ w s ∧ s.output a n = a.transfer n x) := by
  by_cases hsame : s.input a n = x ∧ s.output a n = a.transfer n x
  · obtain ⟨hi, ho⟩ := hsame
    exact .inr ⟨by rw [cost, input_put_same hi, output_put_same ho, cost], ho⟩
  refine .inl ?_
  have hmem : n ∈ (a.order g).toFinset := List.mem_toFinset.2 hn
  have hrest : ∑ m ∈ (a.order g).toFinset.erase n,
      (a.capacity - ρ ((s.put a n x).input a m) + if (s.put a n x).output a m =
        a.transfer m ((s.put a n x).input a m) then 0 else 1) * w m =
      ∑ m ∈ (a.order g).toFinset.erase n, (a.capacity - ρ (s.input a m) +
        if s.output a m = a.transfer m (s.input a m) then 0 else 1) * w m := by
    refine sum_congr rfl fun m hm => ?_
    have hne : n ≠ m := (ne_of_mem_erase hm).symm
    rw [State.input_put, State.output_put, if_neg hne, if_neg hne]
  have hhere : a.capacity - ρ x + 1 ≤ a.capacity - ρ (s.input a n) +
      if s.output a n = a.transfer n (s.input a n) then 0 else 1 := by
    by_cases hi : s.input a n = x
    · rw [if_neg fun ho => hsame ⟨hi, hi ▸ ho⟩, hi]
    · have hlt := hρ.lt _ _ (hA.arises_input n) hx (lt_of_le_of_ne hle hi)
      have hcap := hρ.le x hx
      omega
  unfold cost
  rw [← add_sum_erase _ _ hmem, ← add_sum_erase _ _ hmem, hrest, State.input_put,
    State.output_put, if_pos rfl, if_pos rfl, if_pos rfl, Nat.add_zero]
  have := Nat.mul_le_mul_right (w n) hhere
  rw [Nat.add_mul, Nat.one_mul] at this
  omega

omit [Ord N] [TransOrd N] [LawfulEqOrd N] in
theorem sum_toFinset_le (l : List N) (w : N → ℕ) : ∑ n ∈ l.toFinset, w n ≤ (l.map w).sum := by
  induction l with
  | nil => simp
  | cons n l ih =>
    rw [List.toFinset_cons, List.map_cons, List.sum_cons]
    by_cases hn : n ∈ l.toFinset
    · rw [insert_eq_of_mem hn]
      omega
    · rw [sum_insert hn]
      omega

omit [Ord N] [TransOrd N] [LawfulEqOrd N] [DecidableEq F] [PartialOrder F] in
theorem sum_order_le (a : Analysis N F) (g : FlowGraph N) (w : N → ℕ) :
    ∑ n ∈ (a.order g).toFinset, w n ≤ (g.nodes.map w).sum := by
  refine (sum_le_sum_of_subset fun n hn => ?_).trans (sum_toFinset_le g.nodes w)
  exact List.mem_toFinset.2 (Analysis.mem_order.1 (List.mem_toFinset.1 hn)).1

omit [LawfulEqOrd N] [PartialOrder F] in
theorem cost_le (w : N → ℕ) : cost a g ρ w s ≤ (a.capacity + 1) * (g.nodes.map w).sum := by
  refine le_trans ?_ (Nat.mul_le_mul_left _ (sum_order_le a g w))
  rw [mul_sum]
  refine sum_le_sum fun n _ => Nat.mul_le_mul_right _ ?_
  split <;> omega

omit [LawfulEqOrd N] [PartialOrder F] in
/-- The cost where all outputs belong to their inputs. -/
theorem cost_le_of_settled
    (h : ∀ n ∈ a.order g, s.output a n = a.transfer n (s.input a n)) :
    cost a g ρ (fun _ => 1) s ≤ a.capacity * g.nodes.length := by
  have hlen : (g.nodes.map fun _ => 1).sum = g.nodes.length := by simp
  rw [← hlen]
  refine le_trans ?_ (Nat.mul_le_mul_left _ (sum_order_le a g _))
  rw [mul_sum]
  refine sum_le_sum fun n hn => Nat.mul_le_mul_right _ ?_
  rw [if_pos (h n (List.mem_toFinset.1 hn))]
  omega

end ObjectFlow.Dataflow
