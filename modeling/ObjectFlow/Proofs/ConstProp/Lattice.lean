import Mathlib.Order.Lattice
import ObjectFlow.ConstProp.Basic
import ObjectFlow.Proofs.Dataflow.Equations

/-!
# The lattice of constants

`undef ≤ constant c ≤ nac`, and facts are ordered by the values of all variables. `meet` is the
least upper bound in both, so constant propagation joins (`ConstProp.joins`); its transfer functions
are not monotone, as a divisor that rises from `undef` to zero takes the quotient from `nac` to
`undef`.
-/

namespace ObjectFlow.ConstProp

namespace Value

instance : PartialOrder Value where
  le x y := x = .undef ∨ x = y ∨ y = .nac
  le_refl x := .inr (.inl rfl)
  le_trans x y z := by
    rintro (rfl | rfl | rfl) hyz
    · exact .inl rfl
    · exact hyz
    · rcases hyz with h | rfl | rfl
      · cases h
      · exact .inr (.inr rfl)
      · exact .inr (.inr rfl)
  le_antisymm x y := by
    rintro (rfl | rfl | rfl) hyx
    · rcases hyx with h | h | h
      · exact h.symm
      · exact h.symm
      · cases h
    · rfl
    · rcases hyx with h | h | h
      · cases h
      · exact h.symm
      · exact h

theorem le_nac (x : Value) : x ≤ .nac := .inr (.inr rfl)

theorem meet_comm (x y : Value) : x.meet y = y.meet x := by
  cases x <;> cases y <;> simp only [meet]
  rename_i c d
  by_cases h : c = d
  · rw [if_pos h, if_pos h.symm, h]
  · rw [if_neg h, if_neg (Ne.symm h)]

theorem le_meet_left (x y : Value) : x ≤ x.meet y := by
  cases x with
  | undef => exact .inl rfl
  | nac => exact le_nac _
  | constant c =>
    cases y with
    | undef => exact le_refl (constant c)
    | nac => exact le_nac _
    | constant d =>
      simp only [meet]
      split
      · exact le_refl (constant c)
      · exact le_nac _

theorem meet_le {x y z : Value} (hx : x ≤ z) (hy : y ≤ z) : x.meet y ≤ z := by
  rcases hx with rfl | rfl | rfl
  · rwa [undef_meet]
  · rcases hy with rfl | rfl | rfl
    · rw [meet_comm, undef_meet]
    · cases y <;> simp [meet]
    · exact le_nac _
  · exact le_nac _

instance : SemilatticeSup Value where
  sup := meet
  le_sup_left := le_meet_left
  le_sup_right x y := meet_comm x y ▸ le_meet_left y x
  sup_le _ _ _ := meet_le

end Value

instance : PartialOrder Fact where
  le f g := ∀ v, f.get v ≤ g.get v
  le_refl _ _ := le_rfl
  le_trans _ _ _ h k v := (h v).trans (k v)
  le_antisymm _ _ h k := Fact.ext_get fun v => le_antisymm (h v) (k v)

instance : SemilatticeSup Fact where
  sup := Fact.meet
  le_sup_left f g v := by rw [Fact.get_meet]; exact le_sup_left
  le_sup_right f g v := by rw [Fact.get_meet]; exact le_sup_right
  sup_le _ _ _ h k v := by rw [Fact.get_meet]; exact sup_le (h v) (k v)

theorem joins (holdsInt : VarId → Bool) (b : Body) : (analysis holdsInt b).Joins where
  left _ _ := le_sup_left
  right _ _ := le_sup_right
  least := sup_le

end ObjectFlow.ConstProp
