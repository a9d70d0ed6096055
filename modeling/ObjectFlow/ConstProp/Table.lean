import ObjectFlow.ConstProp.Basic
/-!
# Tables of values

A fact as the map that operations change in place, each telling whether it changed an entry. The
type does not forbid an entry `undef`, although a variable without an entry has that value too, and
a merge walks the entries of a table in no fixed order.
-/

namespace ObjectFlow.ConstProp

open Dataflow

/-- Values of variables; a variable without an entry has the value `undef`. -/
structure Table where
  values : MapFact VarId Value := ∅
deriving DecidableEq

namespace Table

def get (t : Table) (v : VarId) : Value :=
  t.values.getD v .undef

instance : EmptyCollection Table := ⟨{}⟩

/-- Gives a variable a value, and tells whether the entries changed. -/
def update (t : Table) (v : VarId) (x : Value) : Bool × Table :=
  if x = .undef then
    let (old, values) := MapFact.remove t.values v
    (old.isSome, ⟨values⟩)
  else
    let (changed, values) := MapFact.update t.values v x
    (changed, ⟨values⟩)

/-- Replaces a table by another, and tells whether the entries changed. -/
def copyFrom (t other : Table) : Bool × Table :=
  let (changed, values) := MapFact.copyFrom t.values other.values
  (changed, ⟨values⟩)

/-- Merges entries into a table, one after the other. -/
def meetInto (entries : List (VarId × Value)) (target : Table) : Table :=
  entries.foldl (fun t (v, x) => (t.update v (x.meet (t.get v))).2) target

variable (holdsInt : VarId → Bool)

def evalVar (t : Table) (v : VarId) : Value :=
  if holdsInt v then t.get v else .nac

/-- The value of an expression. -/
def eval (t : Table) : Exp → Value
  | .var v => t.evalVar holdsInt v
  | .literal (.int n) => .constant n
  | .binary e => evalOp e.op (t.evalVar holdsInt e.lhs) (t.evalVar holdsInt e.rhs)
  | _ => .nac

/-- The values after an instruction. -/
def transferInstr (i : Instr) (input : Table) : Table :=
  match i.def? with
  | none => input
  | some v =>
    if holdsInt v then
      (input.update v (match i.rhs? with
        | some rhs => input.eval holdsInt rhs
        | none => .nac)).2
    else input

/-- Makes a new output of the input of a node, and tells whether the entries changed. -/
def transferNode (b : Body) (n : Cfg.Node) (input output : Table) : Bool × Table :=
  output.copyFrom (match b.at? n with
    | some s => input.transferInstr holdsInt s.instr
    | none => input)

end Table

end ObjectFlow.ConstProp
