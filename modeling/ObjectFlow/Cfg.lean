import ObjectFlow.Dataflow.Analysis
import ObjectFlow.Stmt
/-!
# Control-flow graphs

The graph of a method body has a node for each statement, one before all of them and one after. Two
nodes may be joined by several edges, as by a branch to the next statement.
-/

namespace ObjectFlow

open Std

namespace Cfg

inductive Node where
  | entry
  | stmt (index : Nat)
  | exit
deriving DecidableEq, Repr

/-- Why control goes along an edge. -/
inductive EdgeKind where
  | entry
  | fallThrough
  | goto
  | ifTrue
  | ifFalse
  | switchCase (value : Int64)
  | switchDefault
  | ret
deriving DecidableEq, Repr

structure Edge where
  source : Node
  target : Node
  kind : EdgeKind
deriving DecidableEq, Repr

namespace Node

/-- A list of numbers that tells nodes apart: the entry comes first, the exit last. -/
def key : Node → List Nat
  | entry => [0]
  | stmt i => [1, i]
  | exit => [2]

theorem key_inj {m n : Node} (h : m.key = n.key) : m = n := by
  cases m <;> cases n <;> simp_all [key]

instance : Ord Node := ⟨compareOn key⟩

instance : TransOrd Node := inferInstanceAs (TransCmp (compareOn key))

instance : LawfulEqOrd Node := lawfulEq_compareOn fun _ _ => key_inj

def label : Node → String
  | entry => "Entry"
  | stmt i => s!"Stmt({i})"
  | exit => "Exit"

end Node

def EdgeKind.label : EdgeKind → String
  | entry => "Entry"
  | fallThrough => "FallThrough"
  | goto => "Goto"
  | ifTrue => "IfTrue"
  | ifFalse => "IfFalse"
  | switchCase value => s!"SwitchCase({value})"
  | switchDefault => "SwitchDefault"
  | ret => "Return"

end Cfg

/-- The statement at a node of the control-flow graph. -/
def Body.at? (b : Body) : Cfg.Node → Option Stmt
  | .stmt i => b.stmt? i
  | .entry | .exit => none

/-- The control-flow graph of a body. -/
structure Cfg where
  body : Body
  nodes : List Cfg.Node
  edges : List Cfg.Edge

namespace Cfg

/-- The node after statement `i` in a body of `length` statements. -/
def next (length i : Nat) : Node :=
  if i + 1 < length then .stmt (i + 1) else .exit

/-- The ways out of a statement, in a body of `length` statements. -/
def exits (length : Nat) (s : Stmt) : List (EdgeKind × Node) :=
  match s.instr with
  | .goto target => [(.goto, .stmt target)]
  | .branch _ target => [(.ifTrue, .stmt target), (.ifFalse, next length s.index)]
  | .switch _ cases default =>
    cases.map (fun (value, target) => (.switchCase value, .stmt target))
      ++ [(.switchDefault, .stmt default)]
  | .ret _ => [(.ret, .exit)]
  | _ => [(.fallThrough, next length s.index)]

/-- The node to which the entry leads. -/
def first (length : Nat) : Node :=
  if length = 0 then .exit else .stmt 0

/-- The graph of a body: the nodes in the order of the statements, the edges in the order of their
sources. A jump to a node that is not there has no edge. -/
def ofBody (b : Body) : Cfg :=
  let nodes := .entry :: b.stmts.map (fun s => .stmt s.index) ++ [.exit]
  let edges := ⟨.entry, first b.stmts.length, .entry⟩ :: b.stmts.flatMap fun s =>
    (exits b.stmts.length s).map fun (kind, target) => ⟨.stmt s.index, target, kind⟩
  { body := b, nodes, edges := edges.filter (·.target ∈ nodes) }

variable (g : Cfg) (n : Node)

/-- The statement at a node. -/
def stmt? : Option Stmt :=
  g.body.at? n

def outEdges : List Edge :=
  g.edges.filter (·.source = n)

def inEdges : List Edge :=
  g.edges.filter (·.target = n)

def succs : List Node :=
  (g.outEdges n).map Edge.target

def preds : List Node :=
  (g.inEdges n).map Edge.source

/-- The graph as solvers see it. -/
def flow : Dataflow.FlowGraph Node where
  entry := .entry
  exit := .exit
  nodes := g.nodes
  preds := g.preds
  succs := g.succs

end Cfg

end ObjectFlow
