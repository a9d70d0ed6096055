import ObjectFlow.CallGraph.Basic
import ObjectFlow.PointsTo.Flow
import ObjectFlow.PointsTo.Heap
import ObjectFlow.Program.Hierarchy
/-!
# What statements demand

The flows between pointers that a statement gives rise to: some from the start, some for each object
that its base may point to, some for each target of a call. A cast is a copy.
-/

namespace ObjectFlow.PointsTo

/-- A flow from the first pointer to the second. -/
abbrev FlowEdge := Pointer Obj × Pointer Obj

/-- The type that an instruction allocates, and the variable that it assigns. -/
def allocation? : Instr → Option (VarId × Ty)
  | .assign lhs (.new type) => some (lhs, type)
  | _ => none

/-- The flow of a copy, a cast, or a load or store of a static field. -/
def copyEdge? : Instr → Option FlowEdge
  | .assign lhs (.var v) => some (.var v, .var lhs)
  | .assign lhs (.cast _ v) => some (.var v, .var lhs)
  | .assign lhs (.field (.static f)) => some (.static f, .var lhs)
  | .storeField (.static f) value => some (.var value, .static f)
  | _ => none

/-- The flow of an access to a field or to the elements of an object. -/
def accessEdge? (o : Obj) : Instr → Option FlowEdge
  | .assign lhs (.field (.object _ f)) => some (.field o f, .var lhs)
  | .storeField (.object _ f) value => some (.var value, .field o f)
  | .assign lhs (.element _) => some (.element o, .var lhs)
  | .storeElement _ value => some (.var value, .element o)
  | _ => none

/-- The flows of a call to a method with a body: arguments to parameters, returned values to the
result. -/
def bindingEdges (result : Option VarId) (call : Invoke) (callee : Body) : List FlowEdge :=
  (call.args.zip callee.params).map (fun (arg, param) => (.var arg, .var param))
    ++ match result with
      | some r => callee.returnVars.map fun v => (.var v, .var r)
      | none => []

/-- The flows of an instruction that calls a method. -/
def callFlows (d : Declarations) (callee : MethodId) : Instr → List FlowEdge
  | .invoke result call =>
    match d.body? callee with
    | some b => bindingEdges result call b
    | none => []
  | _ => []

/-- The variable that holds the receiver in a method. -/
def thisVar? (d : Declarations) (m : MethodId) : Option VarId :=
  (d.body? m).bind Body.this

/-- The sites at which a variable is the base of an access: loads and stores of fields, then of
elements. -/
def accessSites (p : Program) (v : VarId) : List Site :=
  p.usesAs v .loadField ++ p.usesAs v .storeField ++ p.usesAs v .loadElement
    ++ p.usesAs v .storeElement

/-- The flows that the accesses through a variable demand for an object. -/
def accessFlows (p : Program) (v : VarId) (o : Obj) : List FlowEdge :=
  (accessSites p v).filterMap fun site => (p.stmtAt? site).bind (accessEdge? o ·.instr)

/-- The calls that a variable as receiver demands for an object. -/
def receiverCalls (p : Program) (v : VarId) (o : Obj) : List CallEdge :=
  (p.usesAs v .invoke).filterMap fun site => do
    let call ← p.callAt? site
    let callee ← p.calleeOn? (p.classOfType? o.type) call
    return ⟨call.kind, site, callee⟩

/-- The call that a static call site demands. -/
def staticCall? (p : Program) (site : Site) : Instr → Option CallEdge
  | .invoke _ call =>
    match call.kind with
    | .static => (p.calleeOn? none call).map (⟨.static, site, ·⟩)
    | _ => none
  | _ => none

end ObjectFlow.PointsTo
