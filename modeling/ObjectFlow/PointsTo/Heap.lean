import ObjectFlow.Program.Basic
/-!
# Abstract objects

An abstract object stands for all that is allocated at some sites. A `HeapModel` says which object
an allocation makes; a `Heap` numbers objects in the order in which they are first made.
-/

namespace ObjectFlow.PointsTo

open Std

/-- An abstract object: the site that it is named after, and its type. -/
structure Obj where
  site : Site
  type : Ty
deriving DecidableEq, Repr

instance : Ord Obj := ⟨compareLex (compareOn Obj.site) (compareOn Obj.type)⟩

instance : TransOrd Obj :=
  inferInstanceAs (TransCmp (compareLex (compareOn Obj.site) (compareOn Obj.type)))

instance : LawfulEqOrd Obj :=
  lawfulEq_compareLex fun ⟨_, _⟩ ⟨_, _⟩ h₁ h₂ => by cases h₁; cases h₂; rfl

/-- The object that an allocation of a type at a site makes. -/
abbrev HeapModel := Site → Ty → Obj

namespace HeapModel

/-- One object for each site. -/
def bySite : HeapModel := Obj.mk

/-- One object for each type, named after the first site of the program that allocates it. -/
def byType (d : Declarations) : HeapModel := fun site type =>
  let first := d.allStmts.find? fun (_, instr) => instr.rhs? = some (.new type)
  ⟨(first.map Prod.fst).getD site, type⟩

end HeapModel

/-- The objects made so far, in the order of their numbers. No two have one site. -/
structure Heap where
  objs : List Obj := []
deriving DecidableEq, Repr

namespace Heap

instance : EmptyCollection Heap := ⟨{}⟩

/-- The number of the object of a site. -/
def number? (h : Heap) (site : Site) : Option Nat :=
  h.objs.findIdx? (·.site = site)

/-- The number of the object that an allocation makes. The first allocation at a site decides its
type. -/
def alloc (h : Heap) (o : Obj) : Nat × Heap :=
  match h.number? o.site with
  | some n => (n, h)
  | none => (h.objs.length, ⟨h.objs ++ [o]⟩)

/-- The objects of a set in the order of their numbers; any without a number come last. -/
def inOrder (h : Heap) (objs : ExtTreeSet Obj) : List Obj :=
  h.objs.filter (· ∈ objs) ++ objs.toList.filter (· ∉ h.objs)

end Heap

end ObjectFlow.PointsTo
