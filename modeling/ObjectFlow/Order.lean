import Std.Data.ExtTreeMap
import Std.Data.ExtTreeSet
/-!
# Orders given by keys

Maps and sets of this library are listed in the order of their keys. A type gets its order from a
key function, or from two keys one after the other; `lawfulEq_compareOn` and `lawfulEq_compareLex`
say when such an order tells any two values apart.
-/

namespace ObjectFlow

open Std

variable {α β γ : Type}

/-- The order of an injective key tells any two values apart. -/
theorem lawfulEq_compareOn [Ord β] [LawfulEqOrd β] {f : α → β}
    (h : ∀ a b, f a = f b → a = b) : LawfulEqCmp (compareOn f) where
  compare_self := by simp [compareOn]
  eq_of_compare e := h _ _ (LawfulEqOrd.eq_of_compare e)

/-- The order of two keys, the second deciding where the first are equal, tells any two values
apart if the pair of keys is injective. -/
theorem lawfulEq_compareLex [Ord β] [LawfulEqOrd β] [Ord γ] [LawfulEqOrd γ] {f : α → β}
    {g : α → γ} (h : ∀ a b, f a = f b → g a = g b → a = b) :
    LawfulEqCmp (compareLex (compareOn f) (compareOn g)) where
  compare_self := by simp [compareLex, compareOn]
  eq_of_compare {a b} e := by
    simp only [compareLex, compareOn, Ordering.then_eq_eq] at e
    exact h a b (LawfulEqOrd.eq_of_compare e.1) (LawfulEqOrd.eq_of_compare e.2)

end ObjectFlow
