/-!
# Drawings in the DOT language

The lines of a drawing: first the nodes, numbered from zero, then the edges between these numbers.
-/

namespace ObjectFlow.Dot

/-- Writes one character of a label. -/
def escapeChar (c : Char) : List Char :=
  match c with
  | '"' => ['\\', '"']
  | '\\' => ['\\', '\\']
  | '\n' => ['\\', 'l']
  | c => [c]

def escape (s : String) : String :=
  String.ofList (s.toList.flatMap escapeChar)

/-- An edge between two numbered nodes. -/
structure Edge where
  source : Nat
  target : Nat
  label : String
deriving DecidableEq, Repr

def labelText (label : String) : String :=
  " [ label = \"" ++ escape label ++ "\" ]\n"

def nodeLine (number : Nat) (label : String) : String :=
  s!"    {number}" ++ labelText label

def edgeLine (e : Edge) : String :=
  s!"    {e.source} -> {e.target}" ++ labelText e.label

/-- The drawing of nodes with the given labels. -/
def render (labels : List String) (edges : List Edge) : String :=
  String.join ((labels.zipIdx.map fun (label, i) => nodeLine i label) ++ edges.map edgeLine)

/-- The number of the last node of a list that is `a`. -/
def lastNumber? {α : Type} [DecidableEq α] (l : List α) (a : α) : Option Nat :=
  (l.reverse.idxOf? a).map fun i => l.length - 1 - i

end ObjectFlow.Dot
