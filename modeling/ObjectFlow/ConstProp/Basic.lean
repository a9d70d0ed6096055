import ObjectFlow.Cfg
import ObjectFlow.ConstProp.Eval
/-!
# Constant propagation

A forward analysis that follows the values of the variables that hold whole numbers. Parameters may
hold anything, and so may the result of a call.
-/

namespace ObjectFlow.ConstProp

open Dataflow

variable (holdsInt : VarId → Bool) (b : Body)

/-- The fact at the entry. -/
def boundary : Fact :=
  (b.params.filter holdsInt).foldl (fun f p => f.set p .nac) ∅

/-- The fact after an instruction. -/
def transferInstr (i : Instr) (input : Fact) : Fact :=
  match i.def? with
  | none => input
  | some v =>
    if holdsInt v then
      input.set v (match i.rhs? with
        | some rhs => eval holdsInt input rhs
        | none => .nac)
    else input

/-- The fact after a node. -/
def transfer (n : Cfg.Node) (input : Fact) : Fact :=
  match b.at? n with
  | some s => transferInstr holdsInt s.instr input
  | none => input

/-- The variables that a fact can list, with repetitions. -/
def tracked : List VarId :=
  (b.params ++ b.stmts.filterMap (·.instr.def?)).filter holdsInt

/-- Constant propagation on a body; a value takes at most 65 bits. -/
def analysis : Analysis Cfg.Node Fact where
  direction := .forward
  boundary := boundary holdsInt b
  initial := ∅
  meet := Fact.meet
  transfer := transfer holdsInt b
  capacity := 65 * (tracked holdsInt b).length

end ObjectFlow.ConstProp
