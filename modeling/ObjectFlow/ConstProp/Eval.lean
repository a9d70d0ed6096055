import ObjectFlow.ConstProp.Value
import ObjectFlow.Exp
/-!
# Evaluation

Whole numbers have 64 bits and wrap around. Shifts take the amount modulo 64, comparisons give one
or zero.
-/

namespace ObjectFlow

namespace ArithmeticOp

/-- Division truncates, and the remainder has the sign of the dividend. -/
def eval (op : ArithmeticOp) (a b : Int64) : Int64 :=
  match op with
  | add => a + b
  | sub => a - b
  | mul => a * b
  | div => a / b
  | rem => a % b

end ArithmeticOp

namespace CompareOp

def holds (op : CompareOp) (a b : Int64) : Bool :=
  match op with
  | eq => decide (a = b)
  | ne => decide (a ≠ b)
  | lt => decide (a < b)
  | gt => decide (b < a)
  | le => decide (a ≤ b)
  | ge => decide (b ≤ a)

end CompareOp

namespace ShiftOp

def eval (op : ShiftOp) (a b : Int64) : Int64 :=
  match op with
  | left => a <<< (b &&& 63)
  | right => a >>> (b &&& 63)
  | rightZero => (a.toUInt64 >>> (b &&& 63).toUInt64).toInt64

end ShiftOp

namespace BitwiseOp

def eval (op : BitwiseOp) (a b : Int64) : Int64 :=
  match op with
  | or => a ||| b
  | and => a &&& b
  | xor => a ^^^ b

end BitwiseOp

/-- The value of an operation; a divisor is not zero. -/
def BinaryOp.eval (op : BinaryOp) (a b : Int64) : Int64 :=
  match op with
  | arithmetic op => op.eval a b
  | compare op => if op.holds a b then 1 else 0
  | shift op => op.eval a b
  | bitwise op => op.eval a b

namespace ConstProp

/-- The value of a variable, unknown unless its type is followed. -/
def evalVar (holdsInt : VarId → Bool) (f : Fact) (v : VarId) : Value :=
  if holdsInt v then f.get v else .nac

/-- The value of an operation on two values. Division by zero gives no value, whatever the
dividend. -/
def evalOp (op : BinaryOp) (x y : Value) : Value :=
  if op.divides ∧ y = .constant 0 then .undef
  else
    match x, y with
    | .constant a, .constant b => .constant (op.eval a b)
    | .nac, _ | _, .nac => .nac
    | _, _ => .undef

def evalBinary (holdsInt : VarId → Bool) (f : Fact) (e : BinaryExp) : Value :=
  evalOp e.op (evalVar holdsInt f e.lhs) (evalVar holdsInt f e.rhs)

/-- The value of an expression. Only variables, whole numbers and operations on them are
followed. -/
def eval (holdsInt : VarId → Bool) (f : Fact) : Exp → Value
  | .var v => evalVar holdsInt f v
  | .literal (.int n) => .constant n
  | .binary e => evalBinary holdsInt f e
  | _ => .nac

end ConstProp

end ObjectFlow
