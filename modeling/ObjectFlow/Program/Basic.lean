import ObjectFlow.Stmt
/-!
# Declarations

The classes, fields, methods and variables of a program under construction, and what can be looked
up among them. The id of an entity is its position in its table.
-/

namespace ObjectFlow

open Std

structure ClassDecl where
  name : String
  superclass : Option ClassId
  interfaces : List ClassId
  isInterface : Bool
  isAbstract : Bool
  /-- The methods declared in the class. -/
  methods : ExtTreeMap Subsignature MethodId := ∅

structure FieldDecl where
  name : String
  cls : ClassId
  type : Ty
  isStatic : Bool
deriving DecidableEq, Repr

structure VarDecl where
  name : String
  type : Ty
  method : MethodId
deriving DecidableEq, Repr

/-- A method; an abstract one has no body. -/
structure MethodDecl where
  name : String
  cls : ClassId
  subsignature : Subsignature
  paramTypes : List Ty
  returnType : Ty
  isStatic : Bool
  isAbstract : Bool
  body : Option Body
deriving DecidableEq, Repr

/-- All that has been declared. -/
structure Declarations where
  classes : Array ClassDecl := #[]
  fields : Array FieldDecl := #[]
  methods : Array MethodDecl := #[]
  vars : Array VarDecl := #[]
  main : Option MethodId := none

/-- The class on which arrays dispatch. -/
def rootClass : String := "java.lang.Object"

namespace Declarations

instance : EmptyCollection Declarations := ⟨{}⟩

variable (d : Declarations)

/-! ## Entities -/

def class? (c : ClassId) : Option ClassDecl :=
  d.classes[c.index]?

def method? (m : MethodId) : Option MethodDecl :=
  d.methods[m.index]?

def var? (v : VarId) : Option VarDecl :=
  d.vars[v.index]?

def body? (m : MethodId) : Option Body :=
  (d.method? m).bind MethodDecl.body

def classIds : List ClassId :=
  EntityId.below d.classes.size

def methodIds : List MethodId :=
  EntityId.below d.methods.size

/-- Whether constant propagation follows a variable. -/
def holdsInt (v : VarId) : Bool :=
  (d.var? v).any (·.type.holdsInt)

/-! ## Names -/

def className (c : ClassId) : String :=
  ((d.class? c).map ClassDecl.name).getD ""

def typeName : Ty → String
  | .primitive p => p.name
  | .cls c => d.className c
  | .array elem => typeName elem ++ "[]"
  | .null => "null"
  | .void => "void"

def signature? (m : MethodId) : Option Signature :=
  (d.method? m).map fun decl => ⟨d.className decl.cls, decl.subsignature⟩

/-- The signature of a method as a text. -/
def methodText (m : MethodId) : String :=
  ((d.signature? m).map Signature.text).getD ""

/-! ## Look-up -/

def classNamed? (name : String) : Option ClassId :=
  (d.classes.findIdx? (·.name = name)).map EntityId.mk

/-- The class of a given name. -/
def findClass (name : String) : Except Error ClassId :=
  match d.classNamed? name with
  | some c => .ok c
  | none => .error (.unknownClass name)

/-- The method that the class itself declares. -/
def declaredMethod? (c : ClassId) (s : Subsignature) : Option MethodId :=
  (d.class? c).bind (·.methods[s]?)

/-- The method that a text names at a call; its class must be declared, the method need not be. -/
def methodRef (text : String) : Except Error MethodRef := do
  let s ← Signature.parse text
  return ⟨← d.findClass s.cls, s.subsignature⟩

/-- The way to name a declared method at a call. -/
def methodRef? (m : MethodId) : Option MethodRef :=
  (d.method? m).map fun decl => ⟨decl.cls, decl.subsignature⟩

/-- The declared method with a given signature. -/
def findMethod (text : String) : Except Error MethodId := do
  let s ← Signature.parse text
  match d.declaredMethod? (← d.findClass s.cls) s.subsignature with
  | some m => .ok m
  | none => .error (.unknownMethod text)

/-- The class on which a receiver of a given type dispatches. -/
def classOfType? : Ty → Option ClassId
  | .cls c => some c
  | .array _ => d.classNamed? rootClass
  | _ => none

/-- The statement at a site. -/
def stmtAt? (s : Site) : Option Stmt :=
  (d.body? s.method).bind (·.stmt? s.index)

/-- The call at a site. -/
def callAt? (s : Site) : Option Invoke :=
  (d.stmtAt? s).bind (·.instr.invoke?)

/-- The statements of a method with their sites. -/
def stmtsOf (m : MethodId) : List (Site × Instr) :=
  match d.body? m with
  | some b => b.stmts.map fun s => (⟨m, s.index⟩, s.instr)
  | none => []

/-- The call sites of a method. -/
def callSites (m : MethodId) : List Site :=
  ((d.stmtsOf m).filter (·.2.invoke?.isSome)).map Prod.fst

/-- All statements of the program, by method and index. -/
def allStmts : List (Site × Instr) :=
  d.methodIds.flatMap d.stmtsOf

end Declarations

end ObjectFlow
