import ObjectFlow.Proofs.Cfg.Draft

/-!
# The shape of control-flow graphs

`Shape b nodes outEdges inEdges`: a graph has a node for each statement of `b`, and at each node
exactly the edges that the kind of its statement prescribes, in order. It is the shape of the graph
of every body of a program that was built, and of the draft that grows edge by edge: the checks of
the program leave no jump whose edge could be dropped (`shape_of_build`).
-/

namespace ObjectFlow.Cfg

/-- Whether an edge belongs to a jump that its statement names. -/
def EdgeKind.isJump : EdgeKind → Bool
  | goto | ifTrue | switchCase _ | switchDefault => true
  | entry | fallThrough | ifFalse | ret => false

/-- The nodes and edges that the statements of a body prescribe. -/
structure Shape (b : Body) (nodes : List Node) (outEdges inEdges : Node → List Edge) : Prop where
  nodes_eq : nodes = .entry :: (List.range b.stmts.length).map .stmt ++ [.exit]
  out_entry : outEdges .entry = [⟨.entry, first b.stmts.length, .entry⟩]
  out_exit : outEdges .exit = []
  out_goto : ∀ i j target, b.stmt? i = some ⟨j, .goto target⟩ →
    outEdges (.stmt i) = [⟨.stmt i, .stmt target, .goto⟩]
  out_branch : ∀ i j cond target, b.stmt? i = some ⟨j, .branch cond target⟩ →
    outEdges (.stmt i) =
      [⟨.stmt i, .stmt target, .ifTrue⟩, ⟨.stmt i, next b.stmts.length i, .ifFalse⟩]
  out_switch : ∀ i j v cases default, b.stmt? i = some ⟨j, .switch v cases default⟩ →
    outEdges (.stmt i) =
      cases.map (fun c => ⟨.stmt i, .stmt c.2, .switchCase c.1⟩) ++
        [⟨.stmt i, .stmt default, .switchDefault⟩]
  out_ret : ∀ i j value, b.stmt? i = some ⟨j, .ret value⟩ →
    outEdges (.stmt i) = [⟨.stmt i, .exit, .ret⟩]
  /-- A statement that names no target and does not return leads to the next. -/
  out_next : ∀ i s, b.stmt? i = some s → s.instr.targets = [] → (∀ value, s.instr ≠ .ret value) →
    outEdges (.stmt i) = [⟨.stmt i, next b.stmts.length i, .fallThrough⟩]
  out_ne_nil : ∀ i < b.stmts.length, outEdges (.stmt i) ≠ []
  /-- The targets of the jumps are those that the statement names, in their order. -/
  jumps : ∀ i s, b.stmt? i = some s →
    ((outEdges (.stmt i)).filter (·.kind.isJump)).map Edge.target = s.instr.targets.map .stmt
  ends : ∀ n, ∀ e ∈ outEdges n, e.source = n ∧ n ∈ nodes ∧ e.target ∈ nodes
  in_entry : inEdges .entry = []
  /-- The edges into a node are those out of all nodes that end there, in their order. -/
  in_eq : ∀ n, inEdges n = (nodes.flatMap outEdges).filter (·.target = n)
  transposed : (nodes.flatMap inEdges).Perm (nodes.flatMap outEdges)

variable {b : Body} {i : ℕ} {s : Stmt}

theorem filter_isJump_edgesOf {length : ℕ} (s : Stmt) :
    ((edgesOf length s).filter (·.kind.isJump)).map Edge.target = s.instr.targets.map .stmt := by
  obtain ⟨j, instr⟩ := s
  cases instr with
  | switch v cases default =>
    simp [edgesOf, exits, Instr.targets, EdgeKind.isJump, List.filter_map, Function.comp_def]
  | _ => simp [edgesOf, exits, Instr.targets, EdgeKind.isJump]

theorem edgesOf_ne_nil {length : ℕ} (s : Stmt) : edgesOf length s ≠ [] := by
  obtain ⟨j, instr⟩ := s
  cases instr <;> simp [edgesOf, exits]

theorem edgesOf_next {length : ℕ} (hjump : s.instr.targets = [])
    (hret : ∀ value, s.instr ≠ .ret value) :
    edgesOf length s = [⟨.stmt s.index, next length s.index, .fallThrough⟩] := by
  obtain ⟨j, instr⟩ := s
  cases instr <;> simp_all [edgesOf, exits, Instr.targets]

/-- The graph of a body whose statements are numbered by their places and do not jump out of it. -/
theorem shape_ofBody (h : b.Indexed) (hjumps : b.JumpsInside) :
    Shape b (ofBody b).nodes (ofBody b).outEdges (ofBody b).inEdges where
  nodes_eq := nodes_ofBody h
  out_entry := outEdges_entry h hjumps
  out_exit := outEdges_exit
  out_goto i j target hs := by
    obtain rfl : j = i := h i _ hs
    exact outEdges_stmt h hjumps hs
  out_branch i j cond target hs := by
    obtain rfl : j = i := h i _ hs
    exact outEdges_stmt h hjumps hs
  out_switch i j v cases default hs := by
    obtain rfl : j = i := h i _ hs
    rw [outEdges_stmt h hjumps hs]
    simp [edgesOf, exits]
  out_ret i j value hs := by
    obtain rfl : j = i := h i _ hs
    exact outEdges_stmt h hjumps hs
  out_next i s hs hjump hret := by
    rw [outEdges_stmt h hjumps hs, edgesOf_next hjump hret, h i s hs]
  out_ne_nil i hi := by
    rw [outEdges_stmt h hjumps (List.getElem?_eq_getElem hi)]
    exact edgesOf_ne_nil _
  jumps i s hs := by
    rw [outEdges_stmt h hjumps hs]
    exact filter_isJump_edgesOf s
  ends n e he := by
    obtain ⟨he, hn⟩ := List.mem_filter.1 he
    have hsource : e.source = n := of_decide_eq_true hn
    exact ⟨hsource, hsource ▸ source_demanded (edges_eq_demanded h hjumps ▸ he),
      (edge_cases he).1⟩
  in_entry := inEdges_entry
  in_eq n := by
    rw [flatMap_outEdges h hjumps]
    rfl
  transposed := by
    rw [flatMap_outEdges h hjumps]
    exact perm_flatMap_inEdges h

/-- The graph of every body of a program has the shape that the body prescribes, and so has the
draft that is made edge by edge. -/
theorem shape_of_build {G : Type} [Multigraph Node EdgeKind G] [LawfulMultigraph G]
    {d : Declarations} {p : Program} (hd : d.Built) (h : d.build = .ok p) {m : MethodId} {b : Body}
    (hb : p.body? m = some b) :
    Shape b (ofBody b).nodes (ofBody b).outEdges (ofBody b).inEdges ∧
      let g : Draft G := .ofBody b
      Shape b g.nodes g.outEdges g.inEdges := by
  have hshape := shape_ofBody (Body.indexed_of_build hd h hb) (Body.jumpsInside_of_build h hb)
  refine ⟨hshape, ?_⟩
  dsimp only
  rw [Draft.nodes_ofBody, funext (Draft.outEdges_ofBody (G := G) b),
    funext (Draft.inEdges_ofBody (G := G) b)]
  exact hshape

/-- A switch with a repeated case and a branch to the next statement: parallel edges stay apart. -/
theorem shape_of_build_parallel : ∃ (d : Declarations) (p : Program) (b : Body), d.Built ∧
    d.build = .ok p ∧ p.body? ⟨0⟩ = some b ∧
    let g : Draft (ArcStack Node EdgeKind) := .ofBody b
    Shape b (ofBody b).nodes (ofBody b).outEdges (ofBody b).inEdges ∧
      Shape b g.nodes g.outEdges g.inEdges ∧
      g.outEdges (.stmt 0) = [⟨.stmt 0, .stmt 2, .switchCase 1⟩, ⟨.stmt 0, .stmt 2, .switchCase 1⟩,
        ⟨.stmt 0, .stmt 0, .switchDefault⟩] ∧
      g.inEdges (.stmt 2) = [⟨.stmt 0, .stmt 2, .switchCase 1⟩, ⟨.stmt 0, .stmt 2, .switchCase 1⟩,
        ⟨.stmt 1, .stmt 2, .ifTrue⟩, ⟨.stmt 1, .stmt 2, .ifFalse⟩] ∧
      g.outEdges (.stmt 2) = [⟨.stmt 2, .exit, .fallThrough⟩] := by
  have h := Declarations.Built.empty.addClass "C" none [] (by simp) (by simp)
    (Declarations.addClass_first "C")
  replace h := h.addMethod ⟨0⟩ "m" [.int] .void true (by decide) (by decide) rfl
  replace h := h.addStmt ⟨0⟩ (.switch ⟨0⟩ [(1, 2), (1, 2)] 0) (by decide) (by decide) rfl
  replace h := h.addStmt ⟨0⟩ (.branch ⟨.eq, ⟨0⟩, ⟨0⟩⟩ 2) (by decide) (by decide) rfl
  replace h := h.addStmt ⟨0⟩ .nop (by decide) (by decide) rfl
  obtain ⟨hgraph, hdraft⟩ :=
    shape_of_build (G := ArcStack Node EdgeKind) h rfl (m := ⟨0⟩) (b := _) rfl
  exact ⟨_, _, _, h, rfl, rfl, hgraph, hdraft, by decide +kernel, by decide +kernel,
    by decide +kernel⟩

end ObjectFlow.Cfg
