import ObjectFlow.ConstProp.Eval
/-!
# Operations that may fault

A machine refuses some operations on words: to divide by zero, and to shift a word without sign by
as many bits as it has or more. Here evaluation is written with operations that may be refused, and
without a value of its own for what they would give.
-/

namespace ObjectFlow

/-- What a machine makes of two words; `none` where it refuses. Whatever else goes beyond 64 bits
wraps around. -/
def BinaryOp.native? (op : BinaryOp) (a b : Int64) : Option Int64 :=
  match op with
  | arithmetic .div => if b = 0 then none else some (a / b)
  | arithmetic .rem => if b = 0 then none else some (a % b)
  | shift .rightZero =>
    let amount := (b &&& 63).toUInt64
    if amount < 64 then some (a.toUInt64 >>> amount).toInt64 else none
  | op => some (op.eval a b)

namespace ConstProp

/-- The value of an operation on two values, unless the machine refuses. -/
def evalOp? (op : BinaryOp) (x y : Value) : Option Value :=
  if op.divides ∧ y = .constant 0 then some .undef
  else
    match x, y with
    | .constant a, .constant b => (op.native? a b).map .constant
    | .nac, _ | _, .nac => some .nac
    | _, _ => some .undef

def evalBinary? (holdsInt : VarId → Bool) (f : Fact) (e : BinaryExp) : Option Value :=
  evalOp? e.op (evalVar holdsInt f e.lhs) (evalVar holdsInt f e.rhs)

end ConstProp

end ObjectFlow
