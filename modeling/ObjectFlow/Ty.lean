import ObjectFlow.Entity
/-!
# Types

The types of variables, fields and methods. Only `Ty.holdsInt` types are followed by constant
propagation.
-/

namespace ObjectFlow

open Std

/-- The primitive types. -/
inductive Primitive where
  | boolean
  | byte
  | char
  | short
  | int
  | long
  | float
  | double
deriving DecidableEq, Repr

namespace Primitive

def name : Primitive → String
  | boolean => "boolean"
  | byte => "byte"
  | char => "char"
  | short => "short"
  | int => "int"
  | long => "long"
  | float => "float"
  | double => "double"

/-- The position in the list of the primitive types. -/
def rank : Primitive → Nat
  | boolean => 0
  | byte => 1
  | char => 2
  | short => 3
  | int => 4
  | long => 5
  | float => 6
  | double => 7

theorem rank_inj {p q : Primitive} (h : p.rank = q.rank) : p = q := by
  cases p <;> cases q <;> first | rfl | exact absurd h (by decide)

end Primitive

/-- A type: `null` is the type of the null reference, `void` that of no value. -/
inductive Ty where
  | primitive (p : Primitive)
  | cls (c : ClassId)
  | array (elem : Ty)
  | null
  | void
deriving DecidableEq, Repr

namespace Ty

def int : Ty := .primitive .int

/-- Whether a variable of this type holds a whole number of at most 32 bits. -/
def holdsInt : Ty → Bool
  | primitive .boolean | primitive .byte | primitive .char | primitive .short
  | primitive .int => true
  | _ => false

/-- Whether a value of this type is a reference. -/
def isReference : Ty → Bool
  | cls _ | array _ | null => true
  | _ => false

/-- A list of numbers that tells types apart. -/
def key : Ty → List Nat
  | primitive p => [0, p.rank]
  | cls c => [1, c.index]
  | array elem => 2 :: elem.key
  | null => [3]
  | void => [4]

theorem key_inj {t u : Ty} (h : t.key = u.key) : t = u := by
  induction t generalizing u with
  | primitive p =>
    cases u <;> simp [key] at h
    rw [Primitive.rank_inj h]
  | cls c =>
    cases u <;> simp [key] at h
    rename_i d
    cases c; cases d
    cases h
    rfl
  | array t ih =>
    cases u <;> simp [key] at h
    rw [ih h]
  | null => cases u <;> simp [key] at h ⊢
  | void => cases u <;> simp [key] at h ⊢

instance : Ord Ty := ⟨compareOn key⟩

instance : TransOrd Ty := inferInstanceAs (TransCmp (compareOn key))

instance : LawfulEqOrd Ty := lawfulEq_compareOn fun _ _ => key_inj

end Ty

end ObjectFlow
