import ObjectFlow.Program.Builder
/-!
# Programs

`Declarations.build` checks the main method and the branches of all bodies and computes two indices:
where each variable serves as the base of an access or a call, and what stands directly below each
class.
-/

namespace ObjectFlow

open Std

/-- In which role a statement uses a variable as its base. -/
inductive BaseUse where
  | loadField
  | storeField
  | loadElement
  | storeElement
  | invoke
deriving DecidableEq, Repr

/-- The variable on which an instruction works, and how: `x = v.f`, `v.f = x`, `x = v[i]`,
`v[i] = x` or a call with the receiver `v`. -/
def Instr.baseUse? : Instr → Option (VarId × BaseUse)
  | .assign _ (.field (.object base _)) => some (base, .loadField)
  | .storeField (.object base _) _ => some (base, .storeField)
  | .assign _ (.element access) => some (access.base, .loadElement)
  | .storeElement access _ => some (access.base, .storeElement)
  | .invoke _ call => call.base.map (·, .invoke)
  | _ => none

/-- How a class stands directly below another. -/
inductive SubtypeKind where
  | subclass
  | subinterface
  | implementor
deriving DecidableEq, Repr

/-- What a class stands directly below. -/
def ClassDecl.parents (c : ClassDecl) : List (ClassId × SubtypeKind) :=
  if c.isInterface then c.interfaces.map (·, .subinterface)
  else (c.superclass.toList.map (·, .subclass)) ++ c.interfaces.map (·, .implementor)

/-- A checked program with its indices. -/
structure Program extends Declarations where
  uses : ExtTreeMap VarId (List (BaseUse × Site))
  below : ExtTreeMap ClassId (List (SubtypeKind × ClassId))

namespace Declarations

variable (d : Declarations)

/-! ## Checks -/

/-- The main method is static and has a body, if there is one. -/
def checkMain : Except Error Unit :=
  match d.main with
  | none => .ok ()
  | some m =>
    if (d.method? m).any fun decl => decl.isStatic && decl.body.isSome then .ok ()
    else .error (.invalidMain (d.methodText m))

/-- The first jump of a body that leaves it: the index of the statement, and the target. -/
def badJump? (b : Body) : Option (Nat × Nat) :=
  b.stmts.findSome? fun s =>
    (s.instr.targets.find? (b.stmts.length ≤ ·)).map (s.index, ·)

/-- No branch leaves its body. -/
def checkJumps : Except Error Unit :=
  d.methodIds.forM fun m =>
    match d.body? m with
    | none => .ok ()
    | some b =>
      match badJump? b with
      | none => .ok ()
      | some (stmt, target) =>
        .error (.invalidJumpTarget (d.methodText m) stmt target b.stmts.length)

/-! ## Indices -/

/-- Every use of a variable as a base, by method and index. -/
def baseUses : List (VarId × BaseUse × Site) :=
  d.allStmts.filterMap fun (site, instr) =>
    instr.baseUse?.map fun (v, use) => (v, use, site)

/-- Every pair of a class and what stands directly below it, by the id of the latter. -/
def subtypePairs : List (ClassId × SubtypeKind × ClassId) :=
  d.classIds.flatMap fun c =>
    ((d.class? c).map ClassDecl.parents).getD [] |>.map fun (parent, kind) => (parent, kind, c)

/-- The program that has been declared. -/
def build : Except Error Program := do
  d.checkMain
  d.checkJumps
  return { d with uses := group d.baseUses, below := group d.subtypePairs }

end Declarations

namespace Program

variable (p : Program)

/-- The statements that use a variable in one role, by method and index. -/
def usesAs (v : VarId) (use : BaseUse) : List Site :=
  ((p.uses.getD v []).filter (·.1 = use)).map Prod.snd

/-- What stands directly below a class in one way, by id. -/
def directSubtypes (c : ClassId) (kind : SubtypeKind) : List ClassId :=
  ((p.below.getD c []).filter (·.1 = kind)).map Prod.snd

end Program

end ObjectFlow
