import ObjectFlow.Order
/-!
# Facts

Sets of elements and maps to lattice values are canonical: two facts with the same contents are
equal. So an update changed a fact exactly if its result is another fact.
-/

namespace ObjectFlow.Dataflow

open Std

/-- A finite set as a fact. -/
abbrev SetFact (α : Type) [Ord α] := ExtTreeSet α

/-- A map from keys to values as a fact. What a missing key means is up to the analysis. -/
abbrev MapFact (κ ν : Type) [Ord κ] := ExtTreeMap κ ν

/-- The result of an update, with whether it changed the fact. -/
def reporting {F : Type} [DecidableEq F] (update : F → F) (fact : F) : Bool × F :=
  (decide (update fact ≠ fact), update fact)

@[simp] theorem reporting_fst {F : Type} [DecidableEq F] {update : F → F} {fact : F} :
    (reporting update fact).1 = true ↔ update fact ≠ fact := by
  simp [reporting]

@[simp] theorem reporting_snd {F : Type} [DecidableEq F] {update : F → F} {fact : F} :
    (reporting update fact).2 = update fact := rfl

namespace MapFact

variable {κ ν : Type} [Ord κ] [TransOrd κ] [LawfulEqOrd κ] [DecidableEq ν]

/-- Stores a value, and tells whether none or another was stored before. -/
def update (m : MapFact κ ν) (k : κ) (x : ν) : Bool × MapFact κ ν :=
  let changed := match m[k]? with
    | some old => decide (old ≠ x)
    | none => true
  (changed, m.insert k x)

/-- Removes a key, and gives the value that was stored. -/
def remove (m : MapFact κ ν) (k : κ) : Option ν × MapFact κ ν :=
  (m[k]?, m.erase k)

/-- Replaces a map by another, and tells whether this is another. -/
def copyFrom (m other : MapFact κ ν) : Bool × MapFact κ ν :=
  if m = other then (false, m) else (true, other)

end MapFact

end ObjectFlow.Dataflow
