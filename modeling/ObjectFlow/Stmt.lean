import ObjectFlow.Exp
import ObjectFlow.Listing
/-!
# Statements

The statements of a method body. Each carries its index, to which branches refer.
-/

namespace ObjectFlow

/-- How a call chooses its target: a static method, a method of the declared class, or the method
that the receiver's class has. -/
inductive CallKind where
  | static
  | special
  | virtual
  | interface
deriving DecidableEq, Repr

namespace CallKind

def name : CallKind → String
  | static => "Static"
  | special => "Special"
  | virtual => "Virtual"
  | interface => "Interface"

def rank : CallKind → Nat
  | static => 0
  | special => 1
  | virtual => 2
  | interface => 3

theorem rank_inj {k l : CallKind} (h : k.rank = l.rank) : k = l := by
  cases k <;> cases l <;> first | rfl | exact absurd h (by decide)

end CallKind

structure Invoke where
  kind : CallKind
  target : MethodRef
  /-- The receiver. -/
  base : Option VarId
  args : List VarId
deriving DecidableEq, Repr

/-- What a statement does. -/
inductive Instr where
  | assign (lhs : VarId) (rhs : Exp)
  | storeField (access : FieldAccess) (value : VarId)
  | storeElement (access : ArrayAccess) (value : VarId)
  | invoke (result : Option VarId) (call : Invoke)
  | branch (cond : Condition) (target : Nat)
  | switch (v : VarId) (cases : List (Int64 × Nat)) (default : Nat)
  | goto (target : Nat)
  | ret (value : Option VarId)
  | nop
deriving DecidableEq, Repr

structure Stmt where
  index : Nat
  instr : Instr
deriving DecidableEq, Repr

namespace Instr

/-- The variable that the statement assigns. -/
def def? : Instr → Option VarId
  | assign lhs _ => some lhs
  | invoke result _ => result
  | _ => none

/-- The expression that an assignment evaluates. -/
def rhs? : Instr → Option Exp
  | assign _ rhs => some rhs
  | _ => none

def invoke? : Instr → Option Invoke
  | invoke _ call => some call
  | _ => none

/-- The variables that the statement reads, with repetitions. -/
def uses : Instr → List VarId
  | assign _ rhs => rhs.uses
  | storeField access value => access.base?.toList ++ [value]
  | storeElement access value => [access.base, access.index, value]
  | invoke _ call => call.base.toList ++ call.args
  | branch cond _ => [cond.lhs, cond.rhs]
  | switch v _ _ => [v]
  | ret value => value.toList
  | goto _ | nop => []

/-- The statements to which the statement may jump, with repetitions. -/
def targets : Instr → List Nat
  | branch _ target | goto target => [target]
  | switch _ cases default => cases.map Prod.snd ++ [default]
  | _ => []

/-- The field that the statement loads or stores. -/
def fieldAccess? : Instr → Option FieldAccess
  | assign _ (.field access) => some access
  | storeField access _ => some access
  | _ => none

end Instr

/-- The body of a method. In the bodies of a program the index of each statement is its
position. -/
structure Body where
  this : Option VarId := none
  params : List VarId := []
  /-- All variables of the method, `this` and the parameters first. -/
  vars : List VarId := []
  stmts : List Stmt := []
deriving DecidableEq, Repr

namespace Body

/-- The statement at a position. -/
def stmt? (b : Body) (i : Nat) : Option Stmt :=
  b.stmts[i]?

/-- The variables whose values the body returns, in the order of their first return. -/
def returnVars (b : Body) : List VarId :=
  b.stmts.foldl
    (fun l s =>
      match s.instr with
      | .ret (some v) => adjoin l v
      | _ => l)
    []

end Body

end ObjectFlow
