import ObjectFlow.CallGraph.Basic
import ObjectFlow.Options
import ObjectFlow.Program.Hierarchy
/-!
# Call graphs from the class hierarchy

Virtual and interface calls are taken to reach the methods of every class below the declared one.
-/

namespace ObjectFlow

namespace Program

variable (p : Program)

/-- The method with which an analysis of the whole program starts: that of the option `entry`, or
the main method. -/
def entryMethod (config : AnalysisConfig) : Except Error MethodId :=
  match config.options.get? "entry" with
  | some signature => p.findMethod signature
  | none =>
    match p.main with
    | some m => .ok m
    | none => .error .missingEntry

/-- The possible targets of a call, with repetitions. -/
def targets (call : Invoke) : List MethodId :=
  match call.kind with
  | .static | .special => (p.calleeOn? none call).toList
  | .virtual | .interface =>
    (p.subtypes call.target.cls).filterMap fun c => p.calleeOn? (some c) call

/-- The possible targets of the call at a site, ascending. -/
def resolve (site : Site) : List MethodId :=
  match p.callAt? site with
  | some call => sorted (p.targets call)
  | none => []

/-- The possible calls at a site, by callee. -/
def edgesAt (site : Site) : List CallEdge :=
  match p.callAt? site with
  | some call => (sorted (p.targets call)).map (⟨call.kind, site, ·⟩)
  | none => []

/-- The possible calls that a method makes, by site and callee. -/
def callEdges (m : MethodId) : List CallEdge :=
  (p.callSites m).flatMap p.edgesAt

/-- All possible calls of the program, by method. -/
def possibleCalls : List CallEdge :=
  p.methodIds.flatMap p.callEdges

end Program

/-- The calls found so far, and the methods that wait, some of them more than once. -/
structure Discovery where
  graph : CallGraph
  queue : List MethodId

namespace Discovery

def start (entry : MethodId) : Discovery :=
  ⟨(∅ : CallGraph).addEntry entry, [entry]⟩

/-- Adds a call. Its callee waits from now on, unless it is reachable already. -/
def addCall (s : Discovery) (e : CallEdge) : Discovery where
  graph := s.graph.addEdge e
  queue := if e.callee ∈ s.graph.reachable then s.queue else s.queue ++ [e.callee]

/-- Takes the method that waits longest. It becomes reachable and its calls are added, unless it was
reachable before. -/
def step (p : Program) (s : Discovery) : Option Discovery :=
  match s.queue with
  | [] => none
  | m :: queue =>
    if m ∈ s.graph.reachable then some { s with queue }
    else some ((p.callEdges m).foldl addCall ⟨s.graph.addReachable m, queue⟩)

end Discovery

/-- The methods that possible calls lead to from an entry, and these calls. A method waits at most
once for each possible call to it, so the fuel suffices. -/
def Program.callGraph (p : Program) (entry : MethodId) : CallGraph :=
  match iterate (Discovery.step p) (p.possibleCalls.length + 2) (.start entry) with
  | some s => s.graph
  | none => ∅

end ObjectFlow
