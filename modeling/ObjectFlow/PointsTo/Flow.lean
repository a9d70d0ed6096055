import ObjectFlow.Digraph
import ObjectFlow.Entity
/-!
# Pointer flow graphs

The pointers of a program with the objects that each may point to. An edge from `p` to `q` says that
`q` may point to whatever `p` may point to.
-/

namespace ObjectFlow.PointsTo

open Std

variable {O : Type}

/-- What can hold a reference to an object `O`. All elements of an array count as one. -/
inductive Pointer (O : Type) where
  | var (v : VarId)
  | static (f : FieldId)
  | field (o : O) (f : FieldId)
  | element (o : O)
deriving DecidableEq, Repr

namespace Pointer

def rank : Pointer O → Nat
  | var _ => 0
  | static _ => 1
  | field _ _ => 2
  | element _ => 3

/-- The object of which the pointer is a part. -/
def owner? : Pointer O → Option O
  | field o _ | element o => some o
  | var _ | static _ => none

/-- The number of the variable or field. -/
def number : Pointer O → Nat
  | var v => v.index
  | static f | field _ f => f.index
  | element _ => 0

/-- Pointers are ordered by kind, then by owner, then by number. -/
def cmp [Ord O] : Pointer O → Pointer O → Ordering :=
  compareLex (compareOn rank) (compareLex (compareOn owner?) (compareOn number))

instance [Ord O] : Ord (Pointer O) := ⟨cmp⟩

instance [Ord O] [TransOrd O] : TransOrd (Pointer O) :=
  inferInstanceAs (TransCmp
    (compareLex (compareOn rank) (compareLex (compareOn owner?) (compareOn number))))

instance [Ord O] [LawfulEqOrd O] : LawfulEqOrd (Pointer O) where
  compare_self {p} := by
    change cmp p p = .eq
    simp [cmp, compareLex, compareOn]
  eq_of_compare {p q} h := by
    change cmp p q = .eq at h
    simp only [cmp, compareLex, compareOn, Ordering.then_eq_eq] at h
    have h₁ := LawfulEqOrd.eq_of_compare h.1
    have h₂ := LawfulEqOrd.eq_of_compare h.2.1
    have h₃ := LawfulEqOrd.eq_of_compare h.2.2
    rcases p with ⟨⟨_⟩⟩ | ⟨⟨_⟩⟩ | ⟨_, ⟨_⟩⟩ | _ <;> rcases q with ⟨⟨_⟩⟩ | ⟨⟨_⟩⟩ | ⟨_, ⟨_⟩⟩ | _ <;>
      simp_all [rank, owner?, number]

end Pointer

/-- A set of objects. -/
abbrev PointsToSet (O : Type) [Ord O] := ExtTreeSet O

namespace PointsToSet

variable [Ord O] [TransOrd O]

/-- Adds the objects of `t` to `s` and tells which were new. -/
def addAll (s t : PointsToSet O) : PointsToSet O × PointsToSet O :=
  (t \ s, s ∪ t)

def intersects (s t : PointsToSet O) : Bool :=
  !(s ∩ t).isEmpty

end PointsToSet

/-- The edges between pointers, and the objects that are known to reach each of them. -/
structure PointerFlow (O : Type) [Ord O] where
  graph : Digraph (Pointer O) := ∅
  sets : ExtTreeMap (Pointer O) (PointsToSet O) := ∅

namespace PointerFlow

variable [Ord O] [TransOrd O] (f : PointerFlow O)

instance : EmptyCollection (PointerFlow O) := ⟨{}⟩

def points? (p : Pointer O) : Option (PointsToSet O) :=
  f.sets[p]?

/-- The objects that a pointer may point to. -/
def points (p : Pointer O) : PointsToSet O :=
  f.sets.getD p ∅

/-- Adds an edge and tells whether it is new. -/
def addEdge (p q : Pointer O) : Bool × PointerFlow O :=
  let (new, graph) := f.graph.addEdge p q
  (new, { f with graph })

/-- Lets a pointer point to more objects and tells which of them are new. -/
def addPoints (p : Pointer O) (objs : PointsToSet O) : PointsToSet O × PointerFlow O :=
  let (new, all) := (f.points p).addAll objs
  (new, { graph := (f.graph.addNode p).2, sets := f.sets.insert p all })

end PointerFlow

/-- Objects on their way to pointers, first come, first served. -/
structure Traffic (O : Type) [Ord O] where
  entries : List (Pointer O × PointsToSet O) := []

namespace Traffic

variable [Ord O] (t : Traffic O)

instance : EmptyCollection (Traffic O) := ⟨{}⟩

def push (p : Pointer O) (objs : PointsToSet O) : Traffic O :=
  ⟨t.entries ++ [(p, objs)]⟩

/-- Takes the entry that waits longest. -/
def poll? : Option ((Pointer O × PointsToSet O) × Traffic O) :=
  match t.entries with
  | [] => none
  | e :: rest => some (e, ⟨rest⟩)

end Traffic

end ObjectFlow.PointsTo
