import ObjectFlow.Program.Build
import ObjectFlow.Search
/-!
# Dispatch and subtypes

`dispatch?` finds the method that a class has for a subsignature, `subtypes` all classes below a
class.
-/

namespace ObjectFlow

namespace Declarations

variable (d : Declarations)

/-- The class and the classes above it, at most `n`. -/
def superChain : Nat → ClassId → List ClassId
  | 0, _ => []
  | n + 1, c =>
    c :: match (d.class? c).bind ClassDecl.superclass with
      | some s => superChain n s
      | none => []

/-- The method that the class itself declares, unless it is abstract. -/
def concreteMethod? (c : ClassId) (s : Subsignature) : Option MethodId :=
  (d.declaredMethod? c s).filter fun m => !(d.method? m).any MethodDecl.isAbstract

/-- The first method for a subsignature on the way up from a class that is not abstract. -/
def dispatch? (c : ClassId) (s : Subsignature) : Option MethodId :=
  (d.superChain d.classes.size c).findSome? (d.concreteMethod? · s)

end Declarations

namespace Program

variable (p : Program)

/-- What stands directly below a class. Below an interface the classes that implement it come before
the interfaces that extend it. -/
def directlyBelow (c : ClassId) : List ClassId :=
  if (p.class? c).any ClassDecl.isInterface then
    p.directSubtypes c .implementor ++ p.directSubtypes c .subinterface
  else p.directSubtypes c .subclass

/-- The class and everything below it, breadth first. -/
def subtypes (c : ClassId) : List ClassId :=
  breadthFirst p.directlyBelow p.classes.size c

/-- The target of a call. Static calls go to the declared method and special calls dispatch on the
declared class; virtual and interface calls dispatch on the class of the receiver. -/
def calleeOn? (receiver : Option ClassId) (call : Invoke) : Option MethodId :=
  match call.kind with
  | .static => p.declaredMethod? call.target.cls call.target.subsignature
  | .special => p.dispatch? call.target.cls call.target.subsignature
  | .virtual | .interface => receiver.bind (p.dispatch? · call.target.subsignature)

/-- The target of the call at a site, if there is a call. -/
def resolveOn? (receiver : Option ClassId) (site : Site) : Option MethodId :=
  (p.callAt? site).bind (p.calleeOn? receiver)

end Program

end ObjectFlow
