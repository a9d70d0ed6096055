import Mathlib.SetTheory.Cardinal.Finite
import ObjectFlow.Proofs.ConstProp.Transfer
import ObjectFlow.Proofs.Dataflow.Agreement
import ObjectFlow.Proofs.Dataflow.Cycle
import ObjectFlow.Proofs.Program.Sites

/-!
# When constant propagation ends

The capacity bounds the number of facts that arise (`card_arises_le`), so sweeps that do not end
within the budget of `solve` never end (`sweeps_end`). They end on every body without quotients.
With one they need not: `sweeps_never_end` gives a body on which they repeat themselves.
-/

namespace ObjectFlow.ConstProp

open Dataflow

variable {holdsInt : VarId → Bool} {b : Body}

/-! ## Finitely many facts -/

/-- The number of a value. -/
def Value.code : Value → Fin (2 ^ 65)
  | undef => ⟨0, by omega⟩
  | nac => ⟨1, by omega⟩
  | constant c => ⟨c.toUInt64.toNat + 2, by have := c.toUInt64.toNat_lt; omega⟩

theorem Value.code_injective : Function.Injective Value.code := by
  intro x y h
  have hval := congrArg Fin.val h
  cases x <;> cases y <;> simp only [code] at hval
  · rfl
  · omega
  · omega
  · omega
  · rename_i c d
    have hcd : c.toUInt64.toNat = d.toUInt64.toNat := by omega
    exact congrArg (constant ∘ Int64.ofUInt64) (UInt64.toNat_inj.1 hcd)
  · omega
  · omega
  · omega
  · rfl

/-- The numbers of the values of tracked variables. -/
def Fact.code (holdsInt : VarId → Bool) (b : Body) (f : Fact)
    (v : {v // v ∈ (tracked holdsInt b).toFinset}) : Fin (2 ^ 65) :=
  (f.get v).code

/-- The values of tracked variables tell facts that arise apart. -/
theorem code_injective : Function.Injective
    fun f : {f // (analysis holdsInt b).Arises (Cfg.ofBody b).flow f} => f.1.code holdsInt b := by
  rintro ⟨f, hf⟩ ⟨g, hg⟩ h
  refine Subtype.ext (Fact.ext_get fun v => ?_)
  by_cases hv : v ∈ tracked holdsInt b
  · exact Value.code_injective (congrFun h ⟨v, List.mem_toFinset.2 hv⟩)
  · rw [get_eq_undef hf hv, get_eq_undef hg hv]

instance : Finite {f // (analysis holdsInt b).Arises (Cfg.ofBody b).flow f} :=
  .of_injective _ code_injective

/-- The capacity bounds the number of facts. -/
theorem card_arises_le : Nat.card {f // (analysis holdsInt b).Arises (Cfg.ofBody b).flow f} ≤
    2 ^ (analysis holdsInt b).capacity := by
  refine (Nat.card_le_card_of_injective _ code_injective).trans ?_
  rw [Nat.card_fun, Nat.card_eq_fintype_card, Nat.card_eq_fintype_card, Fintype.card_fin,
    Fintype.card_coe, ← Nat.pow_mul]
  refine Nat.pow_le_pow_right Nat.zero_lt_two (Nat.mul_le_mul_left 65 ?_)
  exact List.toFinset_card_le _

/-- The list of a fact says everything about it. -/
theorem Fact.toList_injective : Function.Injective Fact.toList := by
  intro f g h
  have hvalues : f.values = g.values := Std.ExtTreeMap.toList_inj.1 h
  refine ext_get fun v => ?_
  rw [get, get, hvalues]

/-! ## Sweeps -/

/-- Sweeps end if and only if `solve` gives an answer, as they do on every body without
quotients. -/
theorem sweeps_end (holdsInt : VarId → Bool) (b : Body) :
    (∀ r, Ends .sweep (analysis holdsInt b) (Cfg.ofBody b).flow r ↔
      solve .sweep (analysis holdsInt b) (Cfg.ofBody b).flow = some r) ∧
    ((∀ s ∈ b.stmts, ¬ Quotient holdsInt s.instr) →
      ∃ r, solve .sweep (analysis holdsInt b) (Cfg.ofBody b).flow = some r) := by
  refine ⟨fun r => Sweep.ends_sweep_iff (joins holdsInt b) card_arises_le, fun hb => ?_⟩
  exact exists_solve (Cfg.rooted _) (joins holdsInt b) (fun n _ => monotone_transfer hb n)
    (ranked holdsInt b) .sweep

theorem sweeps_end_loop : ∃ r, solve .sweep (analysis (fun _ => true) { stmts := [
      ⟨0, .assign ⟨0⟩ (.binary ⟨.arithmetic .add, ⟨0⟩, ⟨0⟩⟩)⟩, ⟨1, .goto 0⟩] })
    (Cfg.ofBody { stmts := [
      ⟨0, .assign ⟨0⟩ (.binary ⟨.arithmetic .add, ⟨0⟩, ⟨0⟩⟩)⟩, ⟨1, .goto 0⟩] }).flow = some r :=
  (sweeps_end _ _).2 (by simp [Quotient, BinaryOp.divides])

/-- The parameter is divided by a variable that is undefined on the first visit and zero
afterwards. The quotient, unknown at first and then undefined, goes round a loop of three jumps, of
which two lead backwards:

    0: q = p / b
    1: goto 3
    2: goto 1
    3: if p == p goto 2
    4: b = 0
    5: goto 0
-/
def flicker : Body where
  params := [⟨0⟩]
  vars := [⟨0⟩, ⟨1⟩, ⟨2⟩]
  stmts := [
    ⟨0, .assign ⟨2⟩ (.binary ⟨.arithmetic .div, ⟨0⟩, ⟨1⟩⟩)⟩,
    ⟨1, .goto 3⟩,
    ⟨2, .goto 1⟩,
    ⟨3, .branch ⟨.eq, ⟨0⟩, ⟨0⟩⟩ 2⟩,
    ⟨4, .assign ⟨1⟩ (.literal (.int 0))⟩,
    ⟨5, .goto 0⟩]

/-- Sweeps need not end: on `flicker` the outputs after five sweeps are those after three. -/
theorem sweeps_never_end : ∃ (d : Declarations) (p : Program), d.Built ∧ d.build = .ok p ∧
    p.body? ⟨0⟩ = some flicker ∧
    ∀ fuel, Sweep.run (analysis p.holdsInt flicker) (Cfg.ofBody flicker).flow fuel = none := by
  have h := Declarations.Built.empty.addClass "C" none [] (by simp) (by simp)
    (Declarations.addClass_first "C")
  replace h := h.addMethod ⟨0⟩ "m" [.int] .void true (by decide) (by decide) rfl
  replace h := h.addVar ⟨0⟩ "b" .int (by decide) (by decide) rfl
  replace h := h.addVar ⟨0⟩ "q" .int (by decide) (by decide) rfl
  replace h := h.addStmt ⟨0⟩ (.assign ⟨2⟩ (.binary ⟨.arithmetic .div, ⟨0⟩, ⟨1⟩⟩)) (by decide)
    (by decide) rfl
  replace h := h.addStmt ⟨0⟩ (.goto 3) (by decide) (by decide) rfl
  replace h := h.addStmt ⟨0⟩ (.goto 1) (by decide) (by decide) rfl
  replace h := h.addStmt ⟨0⟩ (.branch ⟨.eq, ⟨0⟩, ⟨0⟩⟩ 2) (by decide) (by decide) rfl
  replace h := h.addStmt ⟨0⟩ (.assign ⟨1⟩ (.literal (.int 0))) (by decide) (by decide) rfl
  replace h := h.addStmt ⟨0⟩ (.goto 0) (by decide) (by decide) rfl
  refine ⟨_, _, h, rfl, rfl, ?_⟩
  refine Sweep.run_eq_none_of_cycle (i := 3) (j := 5) (by omega) ?_ ?_
  · refine (Sweep.fits_after (joins _ _) 3).1.outputs_ext (Sweep.fits_after (joins _ _) 5).1 ?_
    intro n hn
    refine Fact.toList_injective ?_
    revert n
    decide +kernel
  · intro k hk
    refine Sweep.changes_of_ne (joins _ _) (n := .stmt 1) (mt (congrArg Fact.toList) ?_)
    revert k
    decide +kernel

end ObjectFlow.ConstProp
