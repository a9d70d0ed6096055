import ObjectFlow.Cfg.Draft
import ObjectFlow.Proofs.Cfg.Edges

/-!
# Drafts and graphs

`Draft.Drawn d l es`: the draft `d` has been given the nodes `l` and then the edges `es`. An edge
leaves an arc between the numbers of its ends, and the number of a node tells where it stands in
`l`, so the edges at a node are those of `es` with both ends in `l`, in their order
(`Drawn.edgesAt_eq`). Hence the draft of a body and its graph have the same nodes and the same edges
at every node (`outEdges_ofBody`, `inEdges_ofBody`).
-/

namespace ObjectFlow.Cfg.Draft

open Std (ExtTreeMap)
open LawfulMultigraph

variable {G : Type} [Multigraph Node EdgeKind G] {d : Draft G} {l : List Node} {es : List Edge}
  {e : Edge} {n : Node}

/-- The arc that an edge with known ends becomes. -/
def arc? (d : Draft G) (e : Edge) : Option (Arc EdgeKind) := do
  let source ← d.numbers[e.source]?
  let target ← d.numbers[e.target]?
  return ⟨source, target, e.kind⟩

omit [Multigraph Node EdgeKind G] in
theorem arc?_eq_some_iff {a : Arc EdgeKind} : d.arc? e = some a ↔
    d.numbers[e.source]? = some a.source ∧ d.numbers[e.target]? = some a.target ∧
      e.kind = a.label := by
  obtain ⟨source, target, label⟩ := a
  simp only [arc?, Option.bind_eq_bind, Option.bind_eq_some_iff, Option.pure_def,
    Option.some.injEq, Arc.mk.injEq]
  constructor
  · rintro ⟨_, hs, _, ht, rfl, rfl, rfl⟩
    exact ⟨hs, ht, rfl⟩
  · rintro ⟨hs, ht, rfl⟩
    exact ⟨_, hs, _, ht, rfl, rfl, rfl⟩

theorem addEdge_eq : d.addEdge e =
    match d.arc? e with
    | some a => { d with graph := Multigraph.addArc d.graph a }
    | none => d := by
  unfold addEdge arc?
  cases d.numbers[e.source]? with
  | none => rfl
  | some source => cases d.numbers[e.target]? <;> rfl

theorem numbers_addEdge : (d.addEdge e).numbers = d.numbers := by
  rw [addEdge_eq]
  split <;> rfl

theorem arc?_addEdge {e' : Edge} : (d.addEdge e).arc? e' = d.arc? e' := by
  rw [arc?, arc?, numbers_addEdge]

/-! ## What has been added -/

/-- The nodes `l` have been added to the draft, and each is numbered by a place where it stands. -/
structure Numbered (d : Draft G) (l : List Node) : Prop where
  nodes : d.nodes = l
  number : ∀ {n : Node} {i : ℕ}, d.numbers[n]? = some i → l[i]? = some n
  exists_number : ∀ n ∈ l, ∃ i : ℕ, d.numbers[n]? = some i

/-- The nodes `l` have been added to the draft, and then the edges `es`. -/
structure Drawn (d : Draft G) (l : List Node) (es : List Edge) : Prop extends d.Numbered l where
  arcsFrom : ∀ i, Multigraph.arcsFrom d.graph i =
    ((es.filterMap d.arc?).filter (·.source = i)).reverse
  arcsTo : ∀ i, Multigraph.arcsTo d.graph i =
    ((es.filterMap d.arc?).filter (·.target = i)).reverse

theorem Numbered.mem (h : d.Numbered l) {i : ℕ} (hi : d.numbers[n]? = some i) : n ∈ l :=
  List.mem_of_getElem? (h.number hi)

/-- No two nodes have one number. -/
theorem Numbered.inj (h : d.Numbered l) {m : Node} {i : ℕ} (hm : d.numbers[m]? = some i)
    (hn : d.numbers[n]? = some i) : m = n :=
  Option.some.inj ((h.number hm).symm.trans (h.number hn))

theorem Numbered.fits (h : d.Numbered l) {a : Arc EdgeKind} (ha : d.arc? e = some a) :
    a.Fits d.graph := by
  obtain ⟨hs, ht, -⟩ := arc?_eq_some_iff.1 ha
  have hnodes : Multigraph.nodes d.graph = l := h.nodes
  rw [Arc.Fits, hnodes]
  exact ⟨(List.getElem?_eq_some_iff.1 (h.number hs)).1,
    (List.getElem?_eq_some_iff.1 (h.number ht)).1⟩

section
variable [LawfulMultigraph G]

theorem drawn_empty : (∅ : Draft G).Drawn [] [] where
  nodes := nodes_empty
  number h := by
    have hnone := h.symm.trans ExtTreeMap.getElem?_empty
    cases hnone
  exists_number _ h := absurd h List.not_mem_nil
  arcsFrom := arcsFrom_empty
  arcsTo := arcsTo_empty

theorem Numbered.addNode (h : d.Numbered l) (n : Node) : (d.addNode n).Numbered (l ++ [n]) := by
  have hnumber : (Multigraph.addNode d.graph n).1 = l.length := by
    rw [number_addNode]
    exact congrArg List.length h.nodes
  have hget : ∀ m, (d.addNode n).numbers[m]? =
      if n = m then some l.length else d.numbers[m]? := fun m => by
    simp only [Draft.addNode, hnumber, ExtTreeMap.getElem?_insert, Std.compare_eq_iff_eq]
  refine ⟨(nodes_addNode d.graph n).trans (congrArg (· ++ [n]) h.nodes), fun {m i} hm => ?_,
    fun m hm => ?_⟩
  · rw [hget] at hm
    split at hm
    · rename_i hmn
      obtain rfl := Option.some.inj hm
      rw [List.getElem?_append_right (Nat.le_refl _), Nat.sub_self, hmn]
      rfl
    · have hold := h.number hm
      rwa [List.getElem?_append_left (List.getElem?_eq_some_iff.1 hold).1]
  · rw [hget]
    split
    · exact ⟨_, rfl⟩
    · rename_i hne
      rcases List.mem_append.1 hm with hm | hm
      · exact h.exists_number m hm
      · exact absurd (List.mem_singleton.1 hm).symm hne

theorem Drawn.addNode (h : d.Drawn l []) (n : Node) : (d.addNode n).Drawn (l ++ [n]) [] where
  toNumbered := h.toNumbered.addNode n
  arcsFrom i := (arcsFrom_addNode d.graph n i).trans (h.arcsFrom i)
  arcsTo i := (arcsTo_addNode d.graph n i).trans (h.arcsTo i)

theorem Drawn.foldl_addNode (h : d.Drawn l []) (ns : List Node) :
    (ns.foldl Draft.addNode d).Drawn (l ++ ns) [] := by
  induction ns generalizing d l with
  | nil => rwa [List.append_nil]
  | cons n ns ih =>
    have := ih (h.addNode n)
    rwa [List.append_assoc] at this

theorem Drawn.addEdge (h : d.Drawn l es) (e : Edge) : (d.addEdge e).Drawn l (es ++ [e]) := by
  have harc : (d.addEdge e).arc? = d.arc? := funext fun _ => arc?_addEdge
  have hnumbers := numbers_addEdge (d := d) (e := e)
  suffices hgraph : (d.addEdge e).nodes = l ∧
      (∀ i, Multigraph.arcsFrom (d.addEdge e).graph i =
        (((es ++ [e]).filterMap d.arc?).filter (·.source = i)).reverse) ∧
      ∀ i, Multigraph.arcsTo (d.addEdge e).graph i =
        (((es ++ [e]).filterMap d.arc?).filter (·.target = i)).reverse from
    ⟨⟨hgraph.1, by rw [hnumbers]; exact h.number, by rw [hnumbers]; exact h.exists_number⟩,
      by rw [harc]; exact hgraph.2.1, by rw [harc]; exact hgraph.2.2⟩
  rw [addEdge_eq, List.filterMap_append]
  cases ha : d.arc? e with
  | none => simpa [ha] using ⟨h.nodes, h.arcsFrom, h.arcsTo⟩
  | some a =>
    have hfits := h.fits ha
    refine ⟨(nodes_addArc d.graph a hfits).trans h.nodes, fun i => ?_, fun i => ?_⟩
    · rw [arcsFrom_addArc _ _ _ hfits, h.arcsFrom]
      split <;> simp [*]
    · rw [arcsTo_addArc _ _ _ hfits, h.arcsTo]
      split <;> simp [*]

theorem Drawn.foldl_addEdge (h : d.Drawn l es) (es' : List Edge) :
    (es'.foldl Draft.addEdge d).Drawn l (es ++ es') := by
  induction es' generalizing d es with
  | nil => rwa [List.append_nil]
  | cons e es' ih =>
    have := ih (h.addEdge e)
    rwa [List.append_assoc] at this

end

/-! ## Edges at a node -/

/-- An arc that an edge has left is read as this edge. -/
theorem Numbered.edge?_of_arc? (h : d.Numbered l) {a : Arc EdgeKind} (ha : d.arc? e = some a) :
    d.edge? a = some e := by
  obtain ⟨hs, ht, hk⟩ := arc?_eq_some_iff.1 ha
  rw [edge?, h.nodes, h.number hs, h.number ht, ← hk]
  rfl

theorem Numbered.isSome_arc? (h : d.Numbered l) (hs : e.source ∈ l) :
    (d.arc? e).isSome ↔ e.target ∈ l := by
  obtain ⟨i, hi⟩ := h.exists_number _ hs
  rw [Option.isSome_iff_exists]
  constructor
  · rintro ⟨a, ha⟩
    exact h.mem (arc?_eq_some_iff.1 ha).2.1
  · intro ht
    obtain ⟨j, hj⟩ := h.exists_number _ ht
    exact ⟨⟨i, j, e.kind⟩, arc?_eq_some_iff.2 ⟨hi, hj, rfl⟩⟩

section
variable {arcsAt : G → ℕ → List (Arc EdgeKind)} {nodeAt : Edge → Node}
  {numberAt : Arc EdgeKind → ℕ}

/-- Arcs that are chosen by the number at one end are read as the edges with the node at this end.
-/
theorem Numbered.filterMap_edge? (h : d.Numbered l) {i : ℕ} (hi : d.numbers[n]? = some i)
    (hat : ∀ e a, d.arc? e = some a → d.numbers[nodeAt e]? = some (numberAt a))
    (hsource : ∀ e ∈ es, e.source ∈ l) :
    ((es.filterMap d.arc?).filter (numberAt · = i)).filterMap d.edge? =
      (es.filter (·.target ∈ l)).filter (nodeAt · = n) := by
  induction es with
  | nil => rfl
  | cons e es ih =>
    have ih := ih fun e he => hsource e (List.mem_cons_of_mem _ he)
    have hknown := h.isSome_arc? (hsource e List.mem_cons_self)
    cases ha : d.arc? e with
    | none =>
      have htarget : e.target ∉ l := by simpa [ha] using hknown
      rw [List.filterMap_cons_none ha, ih, List.filter_cons_of_neg (by simpa using htarget)]
    | some a =>
      have htarget : e.target ∈ l := by simpa [ha] using hknown
      have hend : numberAt a = i ↔ nodeAt e = n := by
        have hnumber := hat e a ha
        constructor
        · rintro rfl
          exact h.inj hnumber hi
        · rintro rfl
          exact Option.some.inj (hnumber.symm.trans hi)
      have hedge := h.edge?_of_arc? ha
      rw [List.filterMap_cons_some ha, List.filter_cons,
        List.filter_cons_of_pos (by simpa using htarget), List.filter_cons]
      simp only [hend]
      split
      · rw [List.filterMap_cons_some hedge, ih]
      · exact ih

/-- The edges at one end of the arcs of a node are those that were added with the node at this end,
as far as both ends are known. -/
theorem Numbered.edgesAt_eq (h : d.Numbered l)
    (hat : ∀ e a, d.arc? e = some a → d.numbers[nodeAt e]? = some (numberAt a))
    (harcs : ∀ i, arcsAt d.graph i = ((es.filterMap d.arc?).filter (numberAt · = i)).reverse)
    (hsource : ∀ e ∈ es, e.source ∈ l) :
    d.edgesAt arcsAt n = (es.filter (·.target ∈ l)).filter (nodeAt · = n) := by
  unfold edgesAt
  split
  · rename_i i hi
    rw [harcs, List.filterMap_reverse, List.reverse_reverse, h.filterMap_edge? hi hat hsource]
  · rename_i hnone
    refine (List.filter_eq_nil_iff.2 fun e he hn => ?_).symm
    obtain ⟨hmem, htarget⟩ := List.mem_filter.1 he
    obtain ⟨a, ha⟩ := Option.isSome_iff_exists.1
      ((h.isSome_arc? (hsource e hmem)).2 (of_decide_eq_true htarget))
    rw [← of_decide_eq_true hn, hat e a ha] at hnone
    cases hnone

end

/-! ## The draft of a body -/

section
variable [LawfulMultigraph G]

/-- The draft of a body gets all nodes and then all edges. -/
theorem drawn_ofBody (b : Body) :
    (ofBody b : Draft G).Drawn (Cfg.ofBody b).nodes (demanded b) := by
  have hentry := (drawn_empty (G := G)).addNode .entry
  have hstmts := hentry.foldl_addNode (b.stmts.map fun s => .stmt s.index)
  have hedge := (hstmts.addNode .exit).addEdge ⟨.entry, first b.stmts.length, .entry⟩
  have hall := hedge.foldl_addEdge (b.stmts.flatMap (edgesOf b.stmts.length))
  rw [List.foldl_map, List.foldl_flatMap] at hall
  simp only [edgesOf, List.foldl_map] at hall
  exact hall

theorem nodes_ofBody (b : Body) : (ofBody b : Draft G).nodes = (Cfg.ofBody b).nodes :=
  (drawn_ofBody b).nodes

/-- The draft lists the edges out of a node as the graph does. -/
theorem outEdges_ofBody (b : Body) (n : Node) :
    (ofBody b : Draft G).outEdges n = (Cfg.ofBody b).outEdges n := by
  have h := drawn_ofBody (G := G) b
  have hends : ∀ e a, (ofBody b : Draft G).arc? e = some a →
      (ofBody b : Draft G).numbers[e.source]? = some a.source :=
    fun _ _ ha => (arc?_eq_some_iff.1 ha).1
  exact h.edgesAt_eq hends h.arcsFrom fun _ => source_demanded

/-- The draft lists the edges into a node as the graph does. -/
theorem inEdges_ofBody (b : Body) (n : Node) :
    (ofBody b : Draft G).inEdges n = (Cfg.ofBody b).inEdges n := by
  have h := drawn_ofBody (G := G) b
  have hends : ∀ e a, (ofBody b : Draft G).arc? e = some a →
      (ofBody b : Draft G).numbers[e.target]? = some a.target :=
    fun _ _ ha => (arc?_eq_some_iff.1 ha).2.1
  exact h.edgesAt_eq hends h.arcsTo fun _ => source_demanded

end

end ObjectFlow.Cfg.Draft
