import ObjectFlow.CallGraph.FromHierarchy
import ObjectFlow.PointsTo.Demand
/-!
# Points-to analysis

An inclusion-based analysis without contexts and without an order of statements, which finds the
call graph as it goes. Methods that become reachable contribute their statements, objects travel
along the flow graph, and each object that reaches a variable lets the accesses and calls through
that variable contribute theirs.
-/

namespace ObjectFlow.PointsTo

open Std

/-- What is analysed and how. -/
structure Setup where
  program : Program
  heap : HeapModel := .bySite
  /-- In which order the successors of a pointer are served. -/
  order : Pointer Obj → List (Pointer Obj) → List (Pointer Obj) := fun _ => id

/-- The objects that the statements of some methods make. -/
def heapOf (a : Setup) (methods : List MethodId) : Heap :=
  (methods.flatMap a.program.stmtsOf).foldl
    (fun h (site, instr) =>
      match allocation? instr with
      | some (_, type) => (h.alloc (a.heap site type)).2
      | none => h)
    ∅

structure State where
  calls : CallGraph := ∅
  flow : PointerFlow Obj := ∅
  traffic : Traffic Obj := ∅
  /-- Reachable methods that have not contributed their statements. -/
  pending : List MethodId := []

namespace State

variable (s : State)

instance : EmptyCollection State := ⟨{}⟩

/-- Sends objects to a pointer. -/
def send (p : Pointer Obj) (objs : PointsToSet Obj) : State :=
  { s with traffic := s.traffic.push p objs }

/-- Adds a flow. Along a new one everything is sent that its source points to. -/
def addFlow (e : FlowEdge) : State :=
  if s.flow.graph.hasEdge e.1 e.2 then s
  else
    let s := { s with flow := (s.flow.addEdge e.1 e.2).2 }
    if (s.flow.points e.1).isEmpty then s else s.send e.2 (s.flow.points e.1)

/-- Marks a method as reachable. -/
def reach (m : MethodId) : State :=
  if m ∈ s.calls.reachable then s
  else { s with calls := s.calls.addReachable m, pending := s.pending ++ [m] }

/-- Adds a call; a new one makes its callee reachable and binds arguments and result. -/
def addCall (p : Program) (e : CallEdge) : State :=
  if e ∈ s.calls.edges then s
  else
    let s := { s with calls := s.calls.addEdge e }.reach e.callee
    match p.stmtAt? e.site with
    | some stmt => (callFlows p.toDeclarations e.callee stmt.instr).foldl addFlow s
    | none => s

/-- Adds a call on a receiver, which is sent to `this` of the callee. -/
def addReceiverCall (p : Program) (o : Obj) (e : CallEdge) : State :=
  let s := match thisVar? p.toDeclarations e.callee with
    | some this => s.send (.var this) {o}
    | none => s
  s.addCall p e

/-- Lets a statement of a reachable method contribute. -/
def addStmt (a : Setup) (site : Site) (instr : Instr) : State :=
  let s := match allocation? instr with
    | some (v, type) => s.send (.var v) {a.heap site type}
    | none => s
  let s := match copyEdge? instr with
    | some e => s.addFlow e
    | none => s
  match staticCall? a.program site instr with
  | some e => s.addCall a.program e
  | none => s

/-- Lets the statements of a method contribute. -/
def addMethod (a : Setup) (m : MethodId) : State :=
  (a.program.stmtsOf m).foldl (fun s (site, instr) => s.addStmt a site instr) s

/-- Lets the accesses and calls through a variable contribute for an object that has reached it. -/
def addObject (a : Setup) (v : VarId) (o : Obj) : State :=
  let s := (accessFlows a.program v o).foldl addFlow s
  (receiverCalls a.program v o).foldl (·.addReceiverCall a.program o ·) s

/-- Lets objects arrive at a pointer, and sends those that are new there on to its successors. They
are served in the order in which they were made; all reachable methods have made theirs by now. -/
def arrive (a : Setup) (p : Pointer Obj) (objs : PointsToSet Obj) : State :=
  if objs.isEmpty then s
  else
    let (new, flow) := s.flow.addPoints p objs
    let s := { s with flow }
    if new.isEmpty then s
    else
      let news := (heapOf a s.calls.reachable).inOrder new
      let s := (a.order p (flow.graph.succs p).toList).foldl (·.send · new) s
      match p with
      | .var v => news.foldl (·.addObject a v ·) s
      | _ => s

end State

/-- Pending methods come before travelling objects. -/
def step (a : Setup) (s : State) : Option State :=
  match s.pending with
  | m :: pending => some ({ s with pending }.addMethod a m)
  | [] =>
    s.traffic.poll?.map fun ((p, objs), traffic) => { s with traffic }.arrive a p objs

/-- The state in which the analysis of an entry method starts. -/
def start (entry : MethodId) : State :=
  { (∅ : State) with calls := (∅ : CallGraph).addEntry entry }.reach entry

/-- Enough steps: every method contributes once, and what is sent is sent by an allocation, by a new
flow between two pointers, or because an object is new at a pointer. -/
def budget (p : Program) : Nat :=
  let stmts := p.allStmts.length
  let objs := (p.allStmts.filter fun (_, instr) => (allocation? instr).isSome).length
  let pointers := p.vars.size + p.fields.size + objs * p.fields.size + objs
  p.methods.size + stmts + pointers * pointers + pointers * objs * (pointers + stmts) + 2

/-- What the analysis finds: the call graph, and the objects that each pointer may point to. -/
structure Result where
  calls : CallGraph
  sets : ExtTreeMap (Pointer Obj) (PointsToSet Obj)
  /-- The objects of the reachable methods, in the order in which they are made. -/
  heap : Heap

/-- The analysis from an entry method, which `budget` lets end. -/
def analyze (a : Setup) (entry : MethodId) : Option Result :=
  (iterate (step a) (budget a.program) (start entry)).map fun s =>
    { calls := s.calls, sets := s.flow.sets, heap := heapOf a s.calls.reachable }

namespace Result

variable (r : Result)

def points (p : Pointer Obj) : PointsToSet Obj :=
  r.sets.getD p ∅

/-- The pointers that point to something, in their order. -/
def pointers : List (Pointer Obj) :=
  (r.sets.toList.filter fun (_, objs) => !objs.isEmpty).map Prod.fst

/-- Whether two variables may point to one object. -/
def mayAlias (v w : VarId) : Bool :=
  (r.points (.var v)).intersects (r.points (.var w))

end Result

end ObjectFlow.PointsTo
