import ObjectFlow.Proofs.ConstProp.Transfer
import ObjectFlow.Proofs.Program.Built

/-!
# Where constant propagation is monotone

The transfer function of a node keeps the order of two facts exactly if the statement is no quotient
whose divisor rises to zero between them, while its dividend may be anything; it is monotone exactly
if the statement is no quotient of two variables (`transfer_rises_iff`).
-/

namespace ObjectFlow.ConstProp

open Dataflow

/-- Between two facts of which the second gives every variable at least the value that the first
gives it, the fact after a node rises, too, unless the node falls; and the nodes that never fall are
those without a quotient. -/
theorem transfer_rises_iff (holdsInt : VarId → Bool) (b : Body) (n : Cfg.Node) :
    (∀ f g : Fact, (∀ v, f.get v ≤ g.get v) →
      ((∀ v, (transfer holdsInt b n f).get v ≤ (transfer holdsInt b n g).get v) ↔
        ∀ s, b.at? n = some s → ¬ Falls holdsInt s.instr f g)) ∧
    (Monotone (transfer holdsInt b n) ↔
      ∀ s, b.at? n = some s → ¬ Quotient holdsInt s.instr) :=
  ⟨fun _ _ h => transfer_le_iff h, monotone_transfer_iff⟩

/-- A parameter is divided by a variable that has no value at first and is zero when control comes
back:

    0: q = p / b
    1: b = 0
    2: goto 0
-/
def division : Body where
  params := [⟨0⟩]
  vars := [⟨0⟩, ⟨1⟩, ⟨2⟩]
  stmts := [
    ⟨0, .assign ⟨2⟩ (.binary ⟨.arithmetic .div, ⟨0⟩, ⟨1⟩⟩)⟩,
    ⟨1, .assign ⟨1⟩ (.literal (.int 0))⟩,
    ⟨2, .goto 0⟩]

/-- The parameter may be anything, and nothing else has a value. -/
def onlyParam : Fact := (∅ : Fact).set ⟨0⟩ .nac

/-- The quotient does not fall where the divisor rises to one. -/
theorem transfer_rises_iff_one : (∀ v, onlyParam.get v ≤ (onlyParam.set ⟨1⟩ (.constant 1)).get v) ∧
    ∀ v, (transfer (fun _ => true) division (.stmt 0) onlyParam).get v ≤
      (transfer (fun _ => true) division (.stmt 0) (onlyParam.set ⟨1⟩ (.constant 1))).get v := by
  have hle : onlyParam ≤ onlyParam.set ⟨1⟩ (.constant 1) := Fact.le_set (.inl (by decide +kernel))
  refine ⟨hle, ((transfer_rises_iff _ division (.stmt 0)).1 _ _ hle).2 fun s hs => ?_⟩
  obtain rfl := Option.some.inj hs
  rintro ⟨_, _, heq, -, -, -, -, hzero⟩
  cases heq
  have hone : evalVar (fun _ => true) (onlyParam.set ⟨1⟩ (.constant 1)) ⟨1⟩ = .constant 1 := by
    decide +kernel
  rw [hone] at hzero
  cases hzero

theorem built_division : ∃ (d : Declarations) (p : Program), d.Built ∧ d.build = .ok p ∧
    p.body? ⟨0⟩ = some division ∧ ∀ v ∈ division.vars, p.holdsInt v = true := by
  have h := Declarations.Built.empty.addClass "C" none [] (by simp) (by simp)
    (Declarations.addClass_first "C")
  replace h := h.addMethod ⟨0⟩ "m" [.int] .void true (by decide) (by decide) rfl
  replace h := h.addVar ⟨0⟩ "b" .int (by decide) (by decide) rfl
  replace h := h.addVar ⟨0⟩ "q" .int (by decide) (by decide) rfl
  replace h := h.addStmt ⟨0⟩ (.assign ⟨2⟩ (.binary ⟨.arithmetic .div, ⟨0⟩, ⟨1⟩⟩)) (by decide)
    (by decide) rfl
  replace h := h.addStmt ⟨0⟩ (.assign ⟨1⟩ (.literal (.int 0))) (by decide) (by decide) rfl
  replace h := h.addStmt ⟨0⟩ (.goto 0) (by decide) (by decide) rfl
  exact ⟨_, _, h, rfl, rfl, by decide +kernel⟩

/-- The quotient may be anything while the divisor has no value, and has none itself once the
divisor is zero. -/
theorem quotient_falls : ∃ (d : Declarations) (p : Program), d.Built ∧ d.build = .ok p ∧
    p.body? ⟨0⟩ = some division ∧ ∃ n ∈ (Cfg.ofBody division).nodes, ∃ f g : Fact,
      (∀ v, f.get v ≤ g.get v) ∧
      ¬ ∀ v, (transfer p.holdsInt division n f).get v ≤
        (transfer p.holdsInt division n g).get v := by
  obtain ⟨d, p, hd, hp, hbody, hint⟩ := built_division
  have hle : onlyParam ≤ onlyParam.set ⟨1⟩ (.constant 0) := Fact.le_set (.inl (by decide +kernel))
  refine ⟨d, p, hd, hp, hbody, .stmt 0, by decide +kernel, _, _, hle, fun hmono => ?_⟩
  refine (transfer_le_iff hle).1 hmono _ rfl
    ⟨⟨2⟩, _, rfl, hint ⟨2⟩ (by decide), by decide, ?_, ?_, ?_⟩
  · rw [evalVar_of_holdsInt (hint ⟨0⟩ (by decide))]
    decide +kernel
  · rw [evalVar_of_holdsInt (hint ⟨1⟩ (by decide))]
    decide +kernel
  · rw [evalVar_of_holdsInt (hint ⟨1⟩ (by decide))]
    decide +kernel

end ObjectFlow.ConstProp
