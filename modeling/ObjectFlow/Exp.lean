import ObjectFlow.Signature
import ObjectFlow.Ty
/-!
# Expressions

The right-hand sides of assignments. Operands are variables, so an expression never nests.
-/

namespace ObjectFlow

inductive ArithmeticOp where
  | add
  | sub
  | mul
  | div
  | rem
deriving DecidableEq, Repr

inductive CompareOp where
  | eq
  | ne
  | lt
  | gt
  | le
  | ge
deriving DecidableEq, Repr

/-- Shifts to the left, to the right with the sign, and to the right with zeros. -/
inductive ShiftOp where
  | left
  | right
  | rightZero
deriving DecidableEq, Repr

inductive BitwiseOp where
  | or
  | and
  | xor
deriving DecidableEq, Repr

inductive BinaryOp where
  | arithmetic (op : ArithmeticOp)
  | compare (op : CompareOp)
  | shift (op : ShiftOp)
  | bitwise (op : BitwiseOp)
deriving DecidableEq, Repr

/-- Division and remainder, which fail on the divisor zero. -/
def BinaryOp.divides : BinaryOp → Bool
  | arithmetic .div | arithmetic .rem => true
  | _ => false

structure BinaryExp where
  op : BinaryOp
  lhs : VarId
  rhs : VarId
deriving DecidableEq, Repr

/-- The condition of a branch compares two variables. -/
structure Condition where
  op : CompareOp
  lhs : VarId
  rhs : VarId
deriving DecidableEq, Repr

def Condition.toBinary (c : Condition) : BinaryExp :=
  ⟨.compare c.op, c.lhs, c.rhs⟩

inductive Literal where
  | int (n : Int64)
  | null
  | str (s : String)
deriving DecidableEq, Repr

/-- A field: a static one, or one of the object that `base` holds. -/
inductive FieldAccess where
  | static (field : FieldId)
  | object (base : VarId) (field : FieldId)
deriving DecidableEq, Repr

namespace FieldAccess

def field : FieldAccess → FieldId
  | .static field | .object _ field => field

def base? : FieldAccess → Option VarId
  | .static _ => none
  | .object base _ => some base

end FieldAccess

structure ArrayAccess where
  base : VarId
  index : VarId
deriving DecidableEq, Repr

inductive Exp where
  | var (v : VarId)
  | literal (l : Literal)
  | binary (e : BinaryExp)
  | neg (v : VarId)
  | length (v : VarId)
  | new (ty : Ty)
  | cast (ty : Ty) (v : VarId)
  | instanceOf (v : VarId) (ty : Ty)
  | field (access : FieldAccess)
  | element (access : ArrayAccess)
deriving DecidableEq, Repr

namespace Exp

/-- The variables that the expression reads. -/
def uses : Exp → List VarId
  | var v | neg v | length v | cast _ v | instanceOf v _ => [v]
  | literal _ | new _ => []
  | binary e => [e.lhs, e.rhs]
  | field access => access.base?.toList
  | element access => [access.base, access.index]

/-- Whether evaluation can neither fail nor change anything: an allocation makes an object, a cast,
an access and a division may fail. -/
def isPure : Exp → Bool
  | new _ | cast _ _ | field _ | element _ => false
  | binary e => !e.op.divides
  | _ => true

end Exp

end ObjectFlow
