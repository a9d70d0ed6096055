import Mathlib.Logic.Function.Basic
import ObjectFlow.Cfg
import ObjectFlow.ConstProp.Eval

/-!
# Runs of a body

What a method does with the whole numbers that its variables hold. A `Store` gives numbers to some
of the variables that are followed. Copies, literals and operations on such variables are exact;
whatever else is assigned to one of them is chosen at will, and so is the way through the graph. A
run stops where an undefined variable is read and at a division by zero.
-/

namespace ObjectFlow.ConstProp

/-- The numbers that variables hold. -/
abbrev Store := VarId → Option Int64

variable (holdsInt : VarId → Bool)

/-- Whether an expression is a copy, a number or an operation of variables that hold numbers. -/
def Followed : Exp → Bool
  | .var v => holdsInt v
  | .literal (.int _) => true
  | .binary e => holdsInt e.lhs && holdsInt e.rhs
  | _ => false

/-- The values that an expression can have: one if it is followed, any otherwise. -/
inductive Yields (S : Store) : Exp → Int64 → Prop
  | var {v x} : holdsInt v → S v = some x → Yields S (.var v) x
  | int {n} : Yields S (.literal (.int n)) n
  | binary {e x y} : holdsInt e.lhs → holdsInt e.rhs → S e.lhs = some x → S e.rhs = some y →
      Yields S (.binary e) (e.op.eval x y)
  | unknown {e x} : Followed holdsInt e = false → Yields S e x

/-- The statement reads no undefined variable and does not divide by zero. -/
structure Ready (S : Store) (i : Instr) : Prop where
  reads : ∀ v ∈ i.uses, holdsInt v → ∃ x, S v = some x
  divisor : ∀ e, i.rhs? = some (.binary e) → e.op.divides → S e.rhs ≠ some 0

/-- What a statement makes of a store. -/
inductive Executes (S : Store) (i : Instr) : Store → Prop
  | keep : Ready holdsInt S i → (∀ v, i.def? = some v → holdsInt v = false) → Executes S i S
  | set {v x} : Ready holdsInt S i → i.def? = some v → holdsInt v →
      (∀ rhs, i.rhs? = some rhs → Yields holdsInt S rhs x) →
      Executes S i (Function.update S v (some x))

variable (b : Body)

/-- What a node makes of a store; entry and exit leave it alone. -/
def Passes (n : Cfg.Node) (S T : Store) : Prop :=
  match b.at? n with
  | some s => Executes holdsInt S s.instr T
  | none => T = S

/-- A run arrives at a node with a store. It starts at the entry, where the parameters that hold
numbers are defined and nothing else is. -/
inductive Arrives : Cfg.Node → Store → Prop
  | entry {S : Store} : (∀ v, (∃ x, S v = some x) ↔ v ∈ b.params ∧ holdsInt v) → Arrives .entry S
  | step {m n S T} : Arrives m S → Passes holdsInt b m S T → n ∈ (Cfg.ofBody b).succs m →
      Arrives n T

end ObjectFlow.ConstProp
