import ObjectFlow.Program.Basic
/-!
# Building up declarations

Each operation adds one entity and returns its id; one that fails adds nothing. Bodies are filled
statement by statement after their methods are declared.
-/

namespace ObjectFlow.Declarations

open Std

variable (d : Declarations)

/-! ## Classes and fields -/

/-- Declares a class, or an interface, which is abstract from the start. -/
def declareClass (name : String) (superclass : Option ClassId) (interfaces : List ClassId)
    (isInterface : Bool) : Except Error (ClassId × Declarations) :=
  if (d.classNamed? name).isSome then .error (.duplicateClass name)
  else .ok (⟨d.classes.size⟩, { d with
    classes := d.classes.push
      { name, superclass, interfaces, isInterface, isAbstract := isInterface } })

def addClass (name : String) (superclass : Option ClassId) (interfaces : List ClassId) :
    Except Error (ClassId × Declarations) :=
  d.declareClass name superclass interfaces false

def addInterface (name : String) (interfaces : List ClassId) :
    Except Error (ClassId × Declarations) :=
  d.declareClass name none interfaces true

def setAbstract (c : ClassId) : Declarations :=
  { d with classes := d.classes.modify c.index fun decl => { decl with isAbstract := true } }

def addField (cls : ClassId) (name : String) (type : Ty) (isStatic : Bool) :
    FieldId × Declarations :=
  (⟨d.fields.size⟩, { d with fields := d.fields.push { name, cls, type, isStatic } })

/-! ## Methods -/

/-- The names and types of the variables that a method starts with: `this`, unless it is static, and
its parameters. -/
def headVars (cls : ClassId) (params : List Ty) (isStatic : Bool) : List (String × Ty) :=
  (if isStatic then [] else [("this", .cls cls)])
    ++ params.zipIdx.map fun (type, i) => (s!"p{i}", type)

/-- The next `n` variables. -/
def nextVars (n : Nat) : List VarId :=
  (List.range n).map fun i => ⟨d.vars.size + i⟩

/-- The body with which a method starts. -/
def headBody (params : List Ty) (isStatic : Bool) : Body :=
  if isStatic then
    let vars := d.nextVars params.length
    { params := vars, vars }
  else
    let vars := d.nextVars (params.length + 1)
    { this := vars.head?, params := vars.tail, vars }

/-- Declares a method. An abstract one has no body and no variables. -/
def declareMethod (cls : ClassId) (name : String) (params : List Ty) (ret : Ty)
    (isStatic isAbstract : Bool) : Except Error (MethodId × Declarations) :=
  let subsignature := Subsignature.ofParts (d.typeName ret) name (params.map d.typeName)
  if (d.declaredMethod? cls subsignature).isSome then
    .error (.duplicateMethod (d.className cls) subsignature.text)
  else
    let m : MethodId := ⟨d.methods.size⟩
    let newVars := if isAbstract then [] else headVars cls params isStatic
    .ok (m, { d with
      classes := d.classes.modify cls.index fun decl =>
        { decl with methods := decl.methods.insert subsignature m }
      methods := d.methods.push
        { name, cls, subsignature, paramTypes := params, returnType := ret, isStatic, isAbstract
          body := if isAbstract then none else some (d.headBody params isStatic) }
      vars := d.vars ++ newVars.map fun (name, type) => (⟨name, type, m⟩ : VarDecl) })

/-- Declares a method with an empty body. -/
def addMethod (cls : ClassId) (name : String) (params : List Ty) (ret : Ty) (isStatic : Bool) :
    Except Error (MethodId × Declarations) :=
  d.declareMethod cls name params ret isStatic false

def addAbstractMethod (cls : ClassId) (name : String) (params : List Ty) (ret : Ty) :
    Except Error (MethodId × Declarations) :=
  d.declareMethod cls name params ret false true

def setMain (m : MethodId) : Declarations :=
  { d with main := some m }

/-! ## Bodies -/

/-- The body of a method that has one. -/
def requireBody (m : MethodId) : Except Error Body :=
  match d.body? m with
  | some b => .ok b
  | none => .error (.missingBody (d.methodText m))

def modifyBody (m : MethodId) (f : Body → Body) : Declarations :=
  { d with methods := d.methods.modify m.index fun decl => { decl with body := decl.body.map f } }

/-- Adds a variable to a method with a body. -/
def addVar (m : MethodId) (name : String) (type : Ty) : Except Error (VarId × Declarations) := do
  let _ ← d.requireBody m
  let v : VarId := ⟨d.vars.size⟩
  let d := d.modifyBody m fun b => { b with vars := b.vars ++ [v] }
  return (v, { d with vars := d.vars.push { name, type, method := m } })

/-- Adds a statement at the end of a body and returns its index. -/
def addStmt (m : MethodId) (instr : Instr) : Except Error (Nat × Declarations) := do
  let b ← d.requireBody m
  let i := b.stmts.length
  return (i, d.modifyBody m fun b => { b with stmts := b.stmts ++ [⟨i, instr⟩] })

end ObjectFlow.Declarations
