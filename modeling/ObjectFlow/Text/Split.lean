/-!
# Splitting a list at a separator

`splitAt sep` cuts a list at every occurrence of `sep`. Its two laws say that joining the parts
gives the list back and that no part holds the separator.
-/

namespace ObjectFlow.Text

variable {α : Type} [DecidableEq α]

/-- The parts of a list between the occurrences of `sep`, at least one. -/
def splitAt (sep : α) : List α → List (List α)
  | [] => [[]]
  | a :: l =>
    if a = sep then [] :: splitAt sep l
    else
      match splitAt sep l with
      | [] => [[a]]
      | part :: parts => (a :: part) :: parts

theorem splitAt_ne_nil (sep : α) (l : List α) : splitAt sep l ≠ [] := by
  cases l with
  | nil => simp [splitAt]
  | cons a l =>
    simp only [splitAt]
    split
    · simp
    · split <;> simp

/-- Joining the parts with the separator gives the list back. -/
theorem intercalate_splitAt (sep : α) (l : List α) :
    [sep].intercalate (splitAt sep l) = l := by
  induction l with
  | nil => rfl
  | cons a l ih =>
    simp only [splitAt]
    split
    · rename_i h
      subst h
      cases hs : splitAt a l with
      | nil => exact absurd hs (splitAt_ne_nil a l)
      | cons part parts =>
        rw [hs] at ih
        simp [List.intercalate, List.intersperse] at ih ⊢
        cases parts <;> simp_all
    · cases hs : splitAt sep l with
      | nil => exact absurd hs (splitAt_ne_nil sep l)
      | cons part parts =>
        rw [hs] at ih
        simp [List.intercalate] at ih ⊢
        cases parts <;> simp_all

/-- No part holds the separator. -/
theorem not_mem_of_mem_splitAt {sep : α} {l part : List α} (h : part ∈ splitAt sep l) :
    sep ∉ part := by
  induction l generalizing part with
  | nil => simp_all [splitAt]
  | cons a l ih =>
    simp only [splitAt] at h
    split at h
    · rcases List.mem_cons.1 h with rfl | h
      · simp
      · exact ih h
    · rename_i ha
      cases hs : splitAt sep l with
      | nil => exact absurd hs (splitAt_ne_nil sep l)
      | cons p ps =>
        rw [hs] at h ih
        rcases List.mem_cons.1 h with rfl | h
        · have := ih (List.mem_cons_self ..)
          simp [this, Ne.symm ha]
        · exact ih (List.mem_cons_of_mem _ h)

end ObjectFlow.Text
