import ObjectFlow.Listing
/-!
# Labelled graphs

A labelled graph has at most one arc from a node to another, and each arc has a label.
`LabelledGraph N L G` are the operations on graphs of type `G` with nodes of type `N` and labels of
type `L`, and `LawfulLabelledGraph` says what each of them does to nodes and labels. `ArcList` keeps
nodes and arcs in the order in which they were added.
-/

namespace ObjectFlow

/-- The operations of a directed graph with labels. -/
class LabelledGraph (N L : outParam Type) (G : Type) where
  empty : G
  /-- Adds a node, unless it is there. -/
  addNode (g : G) (n : N) : G
  /-- Adds an arc and its ends. An arc that is there gets the new label. -/
  addArc (g : G) (m n : N) (l : L) : G
  /-- Changes the label of an arc, if it is there. -/
  modifyLabel (g : G) (m n : N) (f : L → L) : G
  hasNode (g : G) (n : N) : Bool
  label? (g : G) (m n : N) : Option L
  /-- The ends of the arcs from a node. -/
  targets (g : G) (m : N) : List N

open LabelledGraph

/-- Look-ups see what was added and nothing else. -/
class LawfulLabelledGraph {N L : outParam Type} (G : Type) [DecidableEq N] [LabelledGraph N L G] :
    Prop where
  hasNode_empty (k : N) : hasNode (empty : G) k = false
  hasNode_addNode (g : G) (n k : N) : hasNode (addNode g n) k ↔ k = n ∨ hasNode g k
  hasNode_addArc (g : G) (m n k : N) (l : L) :
    hasNode (addArc g m n l) k ↔ k = m ∨ k = n ∨ hasNode g k
  hasNode_modifyLabel (g : G) (m n k : N) (f : L → L) :
    hasNode (modifyLabel g m n f) k = hasNode g k
  label?_empty (j k : N) : label? (empty : G) j k = none
  label?_addNode (g : G) (n j k : N) : label? (addNode g n) j k = label? g j k
  label?_addArc (g : G) (m n j k : N) (l : L) :
    label? (addArc g m n l) j k = if j = m ∧ k = n then some l else label? g j k
  label?_modifyLabel (g : G) (m n j k : N) (f : L → L) :
    label? (modifyLabel g m n f) j k =
      if j = m ∧ k = n then (label? g j k).map f else label? g j k
  mem_targets (g : G) (j k : N) : k ∈ targets g j ↔ (label? g j k).isSome

/-! ## Lists of arcs -/

/-- A labelled graph as the lists of its nodes and arcs. -/
structure ArcList (N L : Type) where
  nodes : List N := []
  arcs : List ((N × N) × L) := []
deriving DecidableEq, Repr

namespace ArcList

variable {N L : Type} [DecidableEq N] (g : ArcList N L)

def label? (m n : N) : Option L :=
  (g.arcs.find? (·.1 = (m, n))).map Prod.snd

def modifyLabel (m n : N) (f : L → L) : ArcList N L :=
  { g with arcs := g.arcs.map fun a => if a.1 = (m, n) then (a.1, f a.2) else a }

def addArc (m n : N) (l : L) : ArcList N L :=
  let g := { g with nodes := adjoin (adjoin g.nodes m) n }
  match g.label? m n with
  | some _ => g.modifyLabel m n fun _ => l
  | none => { g with arcs := g.arcs ++ [((m, n), l)] }

instance : LabelledGraph N L (ArcList N L) where
  empty := {}
  addNode g n := { g with nodes := adjoin g.nodes n }
  addArc := addArc
  modifyLabel := modifyLabel
  hasNode g n := decide (n ∈ g.nodes)
  label? := label?
  targets g m := (g.arcs.filter (·.1.1 = m)).map (·.1.2)

/-! ## Laws -/

variable {g : ArcList N L} {m n j k : N} {l : L} {f : L → L}

theorem label?_modifyLabel : (g.modifyLabel m n f).label? j k =
    if j = m ∧ k = n then (g.label? j k).map f else g.label? j k := by
  simp only [label?, modifyLabel, List.find?_map]
  have hkey : ((fun a : (N × N) × L => decide (a.1 = (j, k))) ∘
      fun a => if a.1 = (m, n) then (a.1, f a.2) else a) = fun a => decide (a.1 = (j, k)) := by
    funext a
    simp only [Function.comp_apply]
    split <;> rfl
  rw [hkey]
  cases hfind : g.arcs.find? fun a => decide (a.1 = (j, k)) with
  | none => simp
  | some a =>
    have ha : a.1 = (j, k) := by simpa using List.find?_some hfind
    by_cases hjk : j = m ∧ k = n
    · simp [ha, hjk]
    · have hne : ¬(j, k) = (m, n) := fun h => hjk (Prod.mk.inj h)
      simp [ha, hjk]

theorem label?_addArc : (g.addArc m n l).label? j k =
    if j = m ∧ k = n then some l else g.label? j k := by
  have hnodes : ∀ nodes, ({ g with nodes } : ArcList N L).label? j k = g.label? j k := fun _ => rfl
  unfold addArc
  dsimp only
  split
  · rename_i l' hl
    rw [label?_modifyLabel, hnodes]
    split
    · rename_i hjk
      obtain ⟨rfl, rfl⟩ := hjk
      have hl' : g.label? j k = some l' := hl
      rw [hl']
      rfl
    · rfl
  · rename_i hl
    have hnone : g.label? m n = none := hl
    simp only [label?, List.find?_append, List.find?_singleton, Option.map_or] at hnone ⊢
    by_cases hjk : j = m ∧ k = n
    · obtain ⟨rfl, rfl⟩ := hjk
      simp [hnone]
    · have hne : ¬(m, n) = (j, k) := fun h => hjk ⟨(Prod.mk.inj h).1.symm, (Prod.mk.inj h).2.symm⟩
      simp [hjk, hne]

instance : LawfulLabelledGraph (ArcList N L) where
  hasNode_empty _ := by simp [hasNode, empty]
  hasNode_addNode _ _ _ := by simp [hasNode, addNode, or_comm]
  hasNode_addArc g m n k l := by
    have hnodes : (g.addArc m n l).nodes = adjoin (adjoin g.nodes m) n := by
      unfold addArc
      dsimp only
      split <;> rfl
    simp only [hasNode, LabelledGraph.addArc, hnodes, decide_eq_true_eq, mem_adjoin]
    rw [or_assoc, or_comm, or_assoc]
  hasNode_modifyLabel _ _ _ _ _ := rfl
  label?_empty _ _ := rfl
  label?_addNode _ _ _ _ := rfl
  label?_addArc _ _ _ _ _ _ := label?_addArc
  label?_modifyLabel _ _ _ _ _ _ := label?_modifyLabel
  mem_targets g j k := by
    simp only [LabelledGraph.targets, LabelledGraph.label?, label?, Option.isSome_map,
      List.find?_isSome, List.mem_map, List.mem_filter, decide_eq_true_eq]
    constructor
    · rintro ⟨a, ⟨ha, rfl⟩, rfl⟩
      exact ⟨a, ha, rfl⟩
    · rintro ⟨a, ha, hkey⟩
      exact ⟨a, ⟨ha, by rw [hkey]⟩, by rw [hkey]⟩

end ArcList

end ObjectFlow
