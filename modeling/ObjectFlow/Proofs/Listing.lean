import Mathlib.Data.Finset.Card
import Mathlib.Data.List.Basic
import ObjectFlow.Listing

/-!
# Order of discovery

`FirstOccurrences l r`: `r` has the elements of `l`, each once, in the order in which they first
occur in `l`. This is what adjoining one element after the other makes
(`firstOccurrences_foldl_adjoin`). `Ascending l`: `l` is in the order of its elements, each once.
-/

namespace ObjectFlow

open Std

section
variable {α β : Type} [Ord α] [TransOrd α]

/-- Every element comes before those after it in the order of the type. -/
def Ascending (l : List α) : Prop := l.Pairwise fun a b => compare a b = .lt

theorem ascending_toList (s : ExtTreeSet α) : Ascending s.toList := ExtTreeSet.ordered_toList

/-- A set is listed as its elements are, sorted. -/
theorem toList_eq_sorted [LawfulEqOrd α] [DecidableEq α] {s : ExtTreeSet α} {l : List α}
    (h : ∀ a, a ∈ s ↔ a ∈ l) : s.toList = sorted l := by
  have hs : s = ExtTreeSet.ofList l := ExtTreeSet.ext_mem fun a => by
    rw [h, ExtTreeSet.mem_ofList, List.contains_iff_mem]
  rw [hs, sorted]

/-- A set entered in a table under one key is seen there and nowhere else. -/
theorem mem_getD_insert_insert [LawfulEqOrd α] [Ord β] [TransOrd β] [LawfulEqOrd β]
    {table : ExtTreeMap α (ExtTreeSet β)} {k j : α} {x y : β} :
    y ∈ (table.insert k ((table.getD k ∅).insert x)).getD j ∅ ↔
      j = k ∧ y = x ∨ y ∈ table.getD j ∅ := by
  rw [ExtTreeMap.getD_insert]
  by_cases hk : j = k
  · subst hk
    simp only [compare_self, ↓reduceIte, true_and]
    rw [ExtTreeSet.mem_insert, Std.compare_eq_iff_eq, eq_comm (a := x)]
  · simp [hk, Ne.symm hk]

end

variable {α : Type} [DecidableEq α] {l r : List α} {a : α}

/-- The elements of a list without repetitions, in the order of their first occurrences. -/
structure FirstOccurrences (l r : List α) : Prop where
  mem : ∀ a, a ∈ r ↔ a ∈ l
  order : r.Pairwise fun a b => l.idxOf a < l.idxOf b

namespace FirstOccurrences

theorem nodup (h : FirstOccurrences l r) : r.Nodup :=
  h.order.imp fun hlt he => absurd hlt (by simp [he])

theorem length_eq (h : FirstOccurrences l r) : r.length = l.toFinset.card := by
  rw [← List.toFinset_card_of_nodup h.nodup]
  exact congrArg _ (Finset.ext fun a => by simp [h.mem])

/-- An element at the end counts if it is new. -/
theorem concat (h : FirstOccurrences l r) (a : α) : FirstOccurrences (l ++ [a]) (adjoin r a) where
  mem b := by rw [mem_adjoin, h.mem, List.mem_append, List.mem_singleton]
  order := by
    have hold : r.Pairwise fun b c => (l ++ [a]).idxOf b < (l ++ [a]).idxOf c := by
      refine h.order.imp_of_mem fun {b c} hb hc hlt => ?_
      rw [List.idxOf_append_of_mem ((h.mem b).1 hb), List.idxOf_append_of_mem ((h.mem c).1 hc)]
      exact hlt
    unfold adjoin
    split
    · exact hold
    · rename_i hnew
      refine List.pairwise_append.2 ⟨hold, List.pairwise_singleton _ _, fun b hb c hc => ?_⟩
      obtain rfl := List.mem_singleton.1 hc
      have hl : c ∉ l := fun hc => hnew ((h.mem c).2 hc)
      rw [List.idxOf_append_of_mem ((h.mem b).1 hb), List.idxOf_append_of_notMem hl]
      exact Nat.lt_of_lt_of_le (List.idxOf_lt_length_iff.2 ((h.mem b).1 hb)) (Nat.le_add_right ..)

end FirstOccurrences

theorem firstOccurrences_foldl_adjoin (l : List α) : FirstOccurrences l (l.foldl adjoin []) := by
  suffices h : ∀ l' r l : List α, FirstOccurrences l r →
      FirstOccurrences (l ++ l') (l'.foldl adjoin r) from h l [] [] ⟨by simp, .nil⟩
  intro l'
  induction l' with
  | nil => simp
  | cons a l' ih =>
    intro r l h
    simpa using ih _ _ (h.concat a)

end ObjectFlow
