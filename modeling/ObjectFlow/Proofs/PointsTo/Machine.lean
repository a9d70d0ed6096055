import Mathlib.Logic.Function.Basic
import Mathlib.Logic.Relation
import ObjectFlow.CallGraph.Basic
import ObjectFlow.PointsTo.Heap
import ObjectFlow.Proofs.Program.Sites

/-!
# Executions of programs

A machine with a stack of activations, a heap and static fields, as far as objects are concerned:
`Step p` executes one statement of the method on top of the stack. Which one is left open, so a run
may take any path through a body, and integers are chosen at will; what objects go where is exact.
What fails has no step: an access or a call through a value without an object, a call that finds no
method or one without a body.
-/

namespace ObjectFlow.PointsTo

/-- A value: a literal, which carries no object, or the address of an object. -/
inductive Val where
  | literal (l : Literal)
  | ref (addr : Nat)
deriving DecidableEq, Repr

def Val.null : Val := .literal .null

def Val.int (n : Int64) : Val := .literal (.int n)

/-- An object of the heap. It remembers the site of its allocation and its type. -/
structure Cell where
  obj : Obj
  fields : FieldId → Val := fun _ => .null
  elements : Int64 → Val := fun _ => .null

/-- A call in progress: the method, the call that activated it, unless it is the entry, and its
variables. -/
structure Activation where
  method : MethodId
  call : Option CallEdge := none
  locals : VarId → Val

structure Config where
  stack : List Activation
  heap : List Cell := []
  statics : FieldId → Val

/-- Nothing is allocated, and the entry method runs with values that carry no objects. -/
structure Config.Initial (entry : MethodId) (c : Config) : Prop where
  stack : ∃ locals : VarId → Val, c.stack = [{ method := entry, locals }] ∧
    ∀ v addr, locals v ≠ .ref addr
  heap : c.heap = []
  statics : ∀ f addr, c.statics f ≠ .ref addr

/-- The value of an expression other than an allocation. -/
inductive Eval (heap : List Cell) (statics : FieldId → Val) (locals : VarId → Val) :
    Exp → Val → Prop
  | var {v} : Eval heap statics locals (.var v) (locals v)
  | literal {l} : Eval heap statics locals (.literal l) (.literal l)
  | binary {e n} : Eval heap statics locals (.binary e) (.int n)
  | neg {v n} : Eval heap statics locals (.neg v) (.int n)
  | length {v n} : Eval heap statics locals (.length v) (.int n)
  | cast {type v} : Eval heap statics locals (.cast type v) (locals v)
  | instanceOf {v type n} : Eval heap statics locals (.instanceOf v type) (.int n)
  | static {f} : Eval heap statics locals (.field (.static f)) (statics f)
  | field {base f addr cell} : locals base = .ref addr → heap[addr]? = some cell →
      Eval heap statics locals (.field (.object base f)) (cell.fields f)
  | element {access addr cell i} : locals access.base = .ref addr → heap[addr]? = some cell →
      locals access.index = .int i → Eval heap statics locals (.element access) (cell.elements i)

/-- The method that a call runs, and the receiver that it passes. -/
inductive Target (p : Program) (heap : List Cell) (locals : VarId → Val) (call : Invoke) :
    MethodId → Val → Prop
  | static {callee} : call.kind = .static →
      p.declaredMethod? call.target.cls call.target.subsignature = some callee →
      Target p heap locals call callee .null
  | special {base addr cell callee} : call.kind = .special → call.base = some base →
      locals base = .ref addr → heap[addr]? = some cell →
      p.dispatch? call.target.cls call.target.subsignature = some callee →
      Target p heap locals call callee (.ref addr)
  | dynamic {base addr cell cls callee} : call.kind = .virtual ∨ call.kind = .interface →
      call.base = some base → locals base = .ref addr → heap[addr]? = some cell →
      p.classOfType? cell.obj.type = some cls →
      p.dispatch? cls call.target.subsignature = some callee →
      Target p heap locals call callee (.ref addr)

/-- The variables at the start of a body: `this` holds the receiver, each parameter the argument at
its position. -/
def bindLocals (b : Body) (receiver : Val) (args : List Val) (v : VarId) : Val :=
  if b.this = some v then receiver else ((b.params.zip args).lookup v).getD .null

namespace Activation

def set (act : Activation) (v : VarId) (x : Val) : Activation :=
  { act with locals := Function.update act.locals v x }

/-- The variable that takes the result of a call. -/
def resultOf? (p : Program) (e : CallEdge) : Option VarId :=
  match p.instrAt? e.site with
  | some (.invoke result _) => result
  | _ => none

/-- The caller after a call has returned a value. -/
def receive (p : Program) (caller : Activation) (call : Option CallEdge) (x : Val) : Activation :=
  match call.bind (resultOf? p) with
  | some r => caller.set r x
  | none => caller

end Activation

/-- One statement of the method on top of the stack is executed. -/
inductive Step (p : Program) : Config → Config → Prop
  | assign {act rest heap statics s v e x} : (s, .assign v e) ∈ p.stmtsOf act.method →
      Eval heap statics act.locals e x →
      Step p ⟨act :: rest, heap, statics⟩ ⟨act.set v x :: rest, heap, statics⟩
  | new {act rest heap statics s v t} : (s, .assign v (.new t)) ∈ p.stmtsOf act.method →
      Step p ⟨act :: rest, heap, statics⟩
        ⟨act.set v (.ref heap.length) :: rest, heap ++ [{ obj := ⟨s, t⟩ }], statics⟩
  | storeStatic {act rest heap statics s f v} :
      (s, .storeField (.static f) v) ∈ p.stmtsOf act.method →
      Step p ⟨act :: rest, heap, statics⟩
        ⟨act :: rest, heap, Function.update statics f (act.locals v)⟩
  | storeField {act rest heap statics s base f v addr} :
      (s, .storeField (.object base f) v) ∈ p.stmtsOf act.method →
      act.locals base = .ref addr →
      Step p ⟨act :: rest, heap, statics⟩ ⟨act :: rest, heap.modify addr fun cell =>
        { cell with fields := Function.update cell.fields f (act.locals v) }, statics⟩
  | storeElement {act rest heap statics s access v addr i} :
      (s, .storeElement access v) ∈ p.stmtsOf act.method →
      act.locals access.base = .ref addr → act.locals access.index = .int i →
      Step p ⟨act :: rest, heap, statics⟩ ⟨act :: rest, heap.modify addr fun cell =>
        { cell with elements := Function.update cell.elements i (act.locals v) }, statics⟩
  | call {act rest heap statics s result call callee receiver b} :
      (s, .invoke result call) ∈ p.stmtsOf act.method →
      Target p heap act.locals call callee receiver → p.body? callee = some b →
      Step p ⟨act :: rest, heap, statics⟩
        ⟨{ method := callee, call := some ⟨call.kind, s, callee⟩
           locals := bindLocals b receiver (call.args.map act.locals) } :: act :: rest,
          heap, statics⟩
  | ret {act caller rest heap statics s v} : (s, .ret (some v)) ∈ p.stmtsOf act.method →
      Step p ⟨act :: caller :: rest, heap, statics⟩
        ⟨caller.receive p act.call (act.locals v) :: rest, heap, statics⟩
  /-- A return without a value, or the end of the body. -/
  | leave {act rest heap statics} : Step p ⟨act :: rest, heap, statics⟩ ⟨rest, heap, statics⟩

/-- A run of any finite length. -/
abbrev Run (p : Program) : Config → Config → Prop := Relation.ReflTransGen (Step p)

end ObjectFlow.PointsTo
