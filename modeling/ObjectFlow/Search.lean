import ObjectFlow.Iterate
/-!
# Breadth-first search

`breadthFirst next bound start` lists what `start` leads to, nearest first and each once; neighbours
come in the order in which `next` gives them.
-/

namespace ObjectFlow

variable {α : Type} [DecidableEq α]

/-- The elements of a list that are not in `seen`, each once. -/
def fresh (seen : List α) : List α → List α
  | [] => []
  | a :: l => if a ∈ seen then fresh seen l else a :: fresh (a :: seen) l

/-- What has been found so far, and which of it waits to be expanded. -/
structure Search (α : Type) where
  seen : List α
  todo : List α

/-- Expands the node that waits longest. -/
def Search.step (next : α → List α) (s : Search α) : Option (Search α) :=
  match s.todo with
  | [] => none
  | a :: todo =>
    let new := fresh s.seen (next a)
    some ⟨s.seen ++ new, todo ++ new⟩

/-- Everything that `start` leads to, in the order of discovery, provided there are at most `bound`
nodes; nothing otherwise. -/
def breadthFirst (next : α → List α) (bound : Nat) (start : α) : List α :=
  match iterate (Search.step next) (bound + 1) ⟨[start], [start]⟩ with
  | some s => s.seen
  | none => []

end ObjectFlow
