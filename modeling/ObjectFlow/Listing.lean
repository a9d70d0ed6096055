import ObjectFlow.Order
/-!
# Listing

Three ways to collect values: `adjoin` keeps the order of discovery, `sorted` lists values
ascending, and `group` collects the values of each key. `getD_group` says that grouping loses
nothing.
-/

namespace ObjectFlow

open Std

variable {α β : Type}

/-! ## Order of discovery -/

/-- The list with an element at its end, unless it is there already. -/
def adjoin [DecidableEq α] (l : List α) (a : α) : List α :=
  if a ∈ l then l else l ++ [a]

@[simp] theorem mem_adjoin [DecidableEq α] {l : List α} {a b : α} :
    b ∈ adjoin l a ↔ b ∈ l ∨ b = a := by
  unfold adjoin
  split <;> simp_all

theorem nodup_adjoin [DecidableEq α] {l : List α} {a : α} (h : l.Nodup) : (adjoin l a).Nodup := by
  unfold adjoin
  split <;> simp_all [List.nodup_append]
  grind

/-- Elements that are new and differ from each other are added as they come. -/
theorem foldl_adjoin [DecidableEq α] {l new : List α} (hnew : new.Nodup) (h : ∀ a ∈ new, a ∉ l) :
    new.foldl adjoin l = l ++ new := by
  induction new generalizing l with
  | nil => simp
  | cons a new ih =>
    obtain ⟨ha, hnew⟩ := List.nodup_cons.1 hnew
    have hal : adjoin l a = l ++ [a] := if_neg (h a List.mem_cons_self)
    rw [List.foldl_cons, hal, ih hnew]
    · simp
    · intro b hb hbl
      rcases List.mem_append.1 hbl with hbl | hbl
      · exact h b (List.mem_cons_of_mem a hb) hbl
      · exact ha (List.mem_singleton.1 hbl ▸ hb)

/-! ## Sorting -/

/-- The distinct elements of a list, ascending. -/
def sorted [Ord α] [TransOrd α] (l : List α) : List α :=
  (ExtTreeSet.ofList l).toList

theorem mem_sorted [Ord α] [TransOrd α] [LawfulEqOrd α] [BEq α] [LawfulBEq α] {l : List α} {a : α} :
    a ∈ sorted l ↔ a ∈ l := by
  simp [sorted, ExtTreeSet.mem_toList, ExtTreeSet.mem_ofList]

/-- A set lists no element twice. -/
theorem nodup_toList [Ord α] [TransOrd α] [LawfulEqOrd α] (s : ExtTreeSet α) : s.toList.Nodup := by
  refine ExtTreeSet.distinct_toList.imp fun {x y} h he => h ?_
  rw [he]
  exact compare_self

/-! ## Grouping -/

/-- The values of each key, in the order of the list. -/
def group [Ord α] [TransOrd α] (l : List (α × β)) : ExtTreeMap α (List β) :=
  l.foldl (fun m (a, b) => m.insert a (m.getD a [] ++ [b])) ∅

/-- Grouping keeps the values of each key, their order and how often they occur. -/
theorem getD_group [Ord α] [TransOrd α] [LawfulEqOrd α] [DecidableEq α] (l : List (α × β)) (a : α) :
    (group l).getD a [] = (l.filter (·.1 = a)).map Prod.snd := by
  suffices h : ∀ m : ExtTreeMap α (List β),
      (l.foldl (fun m (a, b) => m.insert a (m.getD a [] ++ [b])) m).getD a []
        = m.getD a [] ++ (l.filter (·.1 = a)).map Prod.snd by
    simpa [group] using h ∅
  induction l with
  | nil => simp
  | cons p l ih =>
    intro m
    obtain ⟨k, b⟩ := p
    simp only [List.foldl_cons, ih]
    by_cases hk : k = a
    · subst hk
      simp
    · simp [ExtTreeMap.getD_insert, hk]

end ObjectFlow
