import ObjectFlow.Program.Builder
/-!
# Building step by step

A `Builder` holds declarations and finds classes by name in a table. A `Step` changes it in place;
what a step changed before it failed stays changed. `Builder.Call` lists the calls of the builder,
and `Builder.run` makes one after the other, whether they fail or not.
-/

namespace ObjectFlow

open Std

/-- Declarations under construction, with the ids of the classes by name. -/
structure Builder extends Declarations where
  classTable : ExtTreeMap String ClassId := ∅

namespace Builder

instance : EmptyCollection Builder := ⟨{}⟩

/-- A change of a builder, which may stop in the middle with an error. -/
abbrev Step := ExceptT Error (StateM Builder)

/-- The result of a step, and the builder that it leaves. -/
def Step.on {α : Type} (x : Step α) (b : Builder) : Except Error α × Builder :=
  x.run.run b

/-! ## Classes and fields -/

def findClass (name : String) : Step ClassId := do
  match (← get).classTable[name]? with
  | some c => return c
  | none => throw (.unknownClass name)

def declareClass (name : String) (superclass : Option ClassId) (interfaces : List ClassId)
    (isInterface : Bool) : Step ClassId := do
  if (← get).classTable.contains name then throw (.duplicateClass name)
  let c : ClassId := ⟨(← get).classes.size⟩
  modify fun b => { b with
    classes := b.classes.push
      { name, superclass, interfaces, isInterface, isAbstract := isInterface } }
  modify fun b => { b with classTable := b.classTable.insert name c }
  return c

def addField (cls : ClassId) (name : String) (type : Ty) (isStatic : Bool) : Step FieldId := do
  let f : FieldId := ⟨(← get).fields.size⟩
  modify fun b => { b with fields := b.fields.push { name, cls, type, isStatic } }
  return f

/-! ## Methods -/

def newVar (m : MethodId) (name : String) (type : Ty) : Step VarId := do
  let v : VarId := ⟨(← get).vars.size⟩
  modify fun b => { b with vars := b.vars.push { name, type, method := m } }
  return v

/-- The body of a new method: makes `this`, unless the method is static, and its parameters. -/
def newBody (m : MethodId) (cls : ClassId) (params : List Ty) (isStatic : Bool) : Step Body := do
  let this ← if isStatic then pure none else some <$> newVar m "this" (.cls cls)
  let params ← params.zipIdx.mapM fun (type, i) => newVar m s!"p{i}" type
  return { this, params, vars := this.toList ++ params }

def declareMethod (cls : ClassId) (name : String) (params : List Ty) (ret : Ty)
    (isStatic isAbstract : Bool) : Step MethodId := do
  let d := (← get).toDeclarations
  let subsignature := Subsignature.ofParts (d.typeName ret) name (params.map d.typeName)
  if (d.declaredMethod? cls subsignature).isSome then
    throw (.duplicateMethod (d.className cls) subsignature.text)
  let m : MethodId := ⟨d.methods.size⟩
  let body ← if isAbstract then pure none else some <$> newBody m cls params isStatic
  modify fun b => { b with
    methods := b.methods.push
      { name, cls, subsignature, paramTypes := params, returnType := ret, isStatic, isAbstract
        body } }
  modify fun b => { b with
    classes := b.classes.modify cls.index fun decl =>
      { decl with methods := decl.methods.insert subsignature m } }
  return m

/-- The method that a text names at a call. -/
def methodRef (text : String) : Step MethodRef := do
  match Signature.parse text with
  | .ok s => return ⟨← findClass s.cls, s.subsignature⟩
  | .error e => throw e

/-! ## Bodies -/

/-- Opens the body of a method. -/
def openBody (m : MethodId) : Step Body := do
  let b ← get
  match b.body? m with
  | some body => return body
  | none => throw (.missingBody (b.methodText m))

def modifyBody (m : MethodId) (f : Body → Body) : Step Unit :=
  modify fun b => { b with toDeclarations := b.toDeclarations.modifyBody m f }

/-- Adds a variable to an open body. -/
def addVar (m : MethodId) (name : String) (type : Ty) : Step VarId := do
  let _ ← openBody m
  let v ← newVar m name type
  modifyBody m fun body => { body with vars := body.vars ++ [v] }
  return v

/-- Adds a statement at the end of an open body and returns its index. -/
def addStmt (m : MethodId) (instr : Instr) : Step Nat := do
  let body ← openBody m
  let i := body.stmts.length
  modifyBody m fun body => { body with stmts := body.stmts ++ [⟨i, instr⟩] }
  return i

/-! ## Calls -/

/-- A call of the builder or of the builder of a body. Those that only read and cannot fail are left
out. -/
inductive Call where
  | addClass (name : String) (superclass : Option ClassId) (interfaces : List ClassId)
  | addInterface (name : String) (interfaces : List ClassId)
  | setAbstract (c : ClassId)
  | classId (name : String)
  | addField (c : ClassId) (name : String) (type : Ty) (isStatic : Bool)
  | addMethod (c : ClassId) (name : String) (params : List Ty) (ret : Ty) (isStatic : Bool)
  | addAbstractMethod (c : ClassId) (name : String) (params : List Ty) (ret : Ty)
  | methodRef (text : String)
  | setMain (m : MethodId)
  | body (m : MethodId)
  | addVar (m : MethodId) (name : String) (type : Ty)
  | addStmt (m : MethodId) (instr : Instr)
deriving DecidableEq, Repr

/-- Makes a call and drops what it returns. -/
def Call.perform : Call → Step Unit
  | addClass name superclass interfaces =>
    discard (declareClass name superclass interfaces false)
  | addInterface name interfaces => discard (declareClass name none interfaces true)
  | setAbstract c => modify fun b => { b with toDeclarations := b.toDeclarations.setAbstract c }
  | classId name => discard (findClass name)
  | addField c name type isStatic => discard (Builder.addField c name type isStatic)
  | addMethod c name params ret isStatic =>
    discard (declareMethod c name params ret isStatic false)
  | addAbstractMethod c name params ret => discard (declareMethod c name params ret false true)
  | methodRef text => discard (Builder.methodRef text)
  | setMain m => modify fun b => { b with main := some m }
  | body m => discard (openBody m)
  | addVar m name type => discard (Builder.addVar m name type)
  | addStmt m instr => discard (Builder.addStmt m instr)

/-- The builder after a call, whether it failed or not. -/
def after (b : Builder) (call : Call) : Builder :=
  (call.perform.on b).2

/-- The builder after some calls. -/
def run (calls : List Call) : Builder :=
  calls.foldl after ∅

end Builder

end ObjectFlow
