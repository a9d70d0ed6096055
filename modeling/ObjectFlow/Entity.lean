import ObjectFlow.Order
/-!
# Entities of a program

Classes, methods, fields and variables are numbered in the order of their creation, each kind on its
own. A `Site` names a statement of the whole program by its method and its index there.
-/

namespace ObjectFlow

open Std

/-- The kinds of numbered entities. -/
inductive Entity where
  | cls
  | method
  | field
  | var
deriving DecidableEq, Repr

/-- The number of an entity among those of its kind. -/
structure EntityId (e : Entity) where
  index : Nat
deriving DecidableEq, Repr

instance {e : Entity} : LawfulBEq (EntityId e) := inferInstance

abbrev ClassId := EntityId .cls
abbrev MethodId := EntityId .method
abbrev FieldId := EntityId .field
abbrev VarId := EntityId .var

instance : ToString VarId := ⟨fun v => s!"%{v.index}"⟩

/-- The ids below `n`, ascending. -/
def EntityId.below {e : Entity} (n : Nat) : List (EntityId e) :=
  (List.range n).map EntityId.mk

/-- A statement of the program: a call site or an allocation site. -/
structure Site where
  method : MethodId
  index : Nat
deriving DecidableEq, Repr

/-! ## Orders -/

instance {e : Entity} : Ord (EntityId e) := ⟨compareOn EntityId.index⟩

instance {e : Entity} : TransOrd (EntityId e) :=
  inferInstanceAs (TransCmp (compareOn EntityId.index))

instance {e : Entity} : LawfulEqOrd (EntityId e) :=
  lawfulEq_compareOn fun ⟨_⟩ ⟨_⟩ h => congrArg _ h

instance : Ord Site := ⟨compareLex (compareOn Site.method) (compareOn Site.index)⟩

instance : TransOrd Site :=
  inferInstanceAs (TransCmp (compareLex (compareOn Site.method) (compareOn Site.index)))

instance : LawfulEqOrd Site :=
  lawfulEq_compareLex fun ⟨_, _⟩ ⟨_, _⟩ h₁ h₂ => by cases h₁; cases h₂; rfl

end ObjectFlow
