import Mathlib.Data.List.Basic
import Mathlib.Order.Lattice
import ObjectFlow.Dataflow.GenKill
import ObjectFlow.Listing
import ObjectFlow.Proofs.Dataflow.Descent

/-!
# Gen/kill analyses by union

Sets ordered by inclusion are a lattice. A gen/kill analysis that merges by union joins, its
transfer functions are monotone, and no fact that arises leaves `GenKill.elements`; so the sizes of
facts tell how often they rise (`GenKill.ranked`).
-/

namespace ObjectFlow.Dataflow

open Std (ExtTreeSet TransOrd LawfulEqOrd)

variable {E : Type} [Ord E] [TransOrd E] [LawfulEqOrd E]

/-! ## Sets -/

instance : PartialOrder (SetFact E) where
  le s t := ∀ x ∈ s, x ∈ t
  le_refl _ _ h := h
  le_trans _ _ _ h k x hx := k x (h x hx)
  le_antisymm _ _ h k := ExtTreeSet.ext_mem fun x => ⟨h x, k x⟩

instance : SemilatticeSup (SetFact E) where
  sup s t := s ∪ t
  le_sup_left _ _ _ h := ExtTreeSet.mem_union_iff.2 (.inl h)
  le_sup_right _ _ _ h := ExtTreeSet.mem_union_iff.2 (.inr h)
  sup_le _ _ _ h k x hx := (ExtTreeSet.mem_union_iff.1 hx).elim (h x) (k x)

theorem size_le {s t : SetFact E} (h : s ≤ t) : s.size ≤ t.size := by
  rw [← ExtTreeSet.length_toList, ← ExtTreeSet.length_toList]
  refine ((nodup_toList s).subperm fun x hx => ?_).length_le
  rw [ExtTreeSet.mem_toList] at hx ⊢
  exact h x hx

theorem size_lt {s t : SetFact E} (h : s < t) : s.size < t.size := by
  obtain ⟨hle, hnot⟩ := lt_iff_le_not_ge.1 h
  obtain ⟨x, hx⟩ := not_forall.1 hnot
  obtain ⟨hxt, hxs⟩ := Classical.not_imp.1 hx
  have hins : s.insert x ≤ t := by
    intro y hy
    rcases ExtTreeSet.mem_insert.1 hy with he | hy
    · exact Std.compare_eq_iff_eq.1 he ▸ hxt
    · exact hle y hy
  have := size_le hins
  rw [ExtTreeSet.size_insert, if_neg (by simpa using hxs)] at this
  omega

/-! ## The analysis -/

namespace GenKill

variable {N : Type} {k : GenKill N E} {l : List N} {n : N} {s t : SetFact E}

theorem meet_eq_sup (hk : k.merge = .union) : k.meet s t = s ⊔ t := by
  unfold meet
  rw [hk]
  exact sup_comm t s

theorem joins (hk : k.merge = .union) : (k.analysis l).Joins where
  left _ _ := le_sup_left.trans_eq (meet_eq_sup hk).symm
  right _ _ := le_sup_right.trans_eq (meet_eq_sup hk).symm
  least hs ht := (meet_eq_sup hk).trans_le (sup_le hs ht)

omit [LawfulEqOrd E] in
theorem mem_transfer {x : E} : x ∈ k.transfer n s ↔ (x ∈ s ∧ x ∉ k.kill n) ∨ x ∈ k.gen n := by
  rw [transfer, ExtTreeSet.mem_union_iff, ExtTreeSet.mem_diff_iff]

theorem monotone_transfer : Monotone (k.transfer n) := by
  intro s t h x hx
  rw [mem_transfer] at hx ⊢
  exact hx.imp_left fun hx => ⟨h x hx.1, hx.2⟩

omit [LawfulEqOrd E] in
theorem mem_elements {x : E} :
    x ∈ k.elements l ↔ x ∈ k.boundary ∨ x ∈ k.initial ∨ ∃ n ∈ l, x ∈ k.gen n := by
  suffices h : ∀ s : SetFact E,
      x ∈ l.foldl (fun s n => s ∪ k.gen n) s ↔ x ∈ s ∨ ∃ n ∈ l, x ∈ k.gen n by
    rw [elements, h, ExtTreeSet.mem_union_iff, or_assoc]
  induction l with
  | nil => simp
  | cons n l ih =>
    intro s
    rw [List.foldl_cons, ih, ExtTreeSet.mem_union_iff]
    simp only [List.mem_cons, exists_eq_or_imp, or_assoc]

/-- Facts that arise hold nothing but what some node generates or what is there from the start. -/
theorem le_elements {g : FlowGraph N} (hk : k.merge = .union)
    (h : (k.analysis g.nodes).Arises g s) : s ≤ k.elements g.nodes := by
  induction h with
  | boundary => exact fun x hx => mem_elements.2 (.inl hx)
  | initial => exact fun x hx => mem_elements.2 (.inr (.inl hx))
  | meet _ _ hs ht => exact (joins (l := g.nodes) hk).least hs ht
  | @transfer n s hn _ hs =>
    intro x hx
    rcases mem_transfer.1 hx with ⟨hx, -⟩ | hx
    · exact hs x hx
    · exact mem_elements.2 (.inr (.inr ⟨n, hn, hx⟩))

/-- The size of a fact tells how far it has risen. -/
theorem ranked {g : FlowGraph N} (hk : k.merge = .union) :
    Ranked (k.analysis g.nodes) g ExtTreeSet.size where
  le _ h := size_le (le_elements hk h)
  lt _ _ _ _ h := size_lt h

end GenKill

end ObjectFlow.Dataflow
