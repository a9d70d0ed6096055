import Mathlib.Data.List.Nodup
import Mathlib.Data.List.Perm.Basic
import ObjectFlow.Proofs.Program.Checks
import ObjectFlow.Proofs.Program.Edges

/-!
# Edges of the statements of a body

`demanded b`: the edges that the statements of `b` ask for, whether or not they lead to a node. If
the statements are numbered by their places (`Body.Indexed`) and no jump leaves the body
(`Body.JumpsInside`), all of them are there (`edges_eq_demanded`), so a statement has the ways out
that it asks for and no others (`outEdges_stmt`). Each edge is listed once at its source and once at
its target (`flatMap_outEdges`, `perm_flatMap_inEdges`). Both conditions hold in programs that were
built (`Body.indexed_of_build`, `Body.jumpsInside_of_build`).
-/

namespace ObjectFlow

/-! ## Lists by key -/

section
variable {α β κ : Type} [DecidableEq κ] {key : α → κ}

/-- Of lists whose elements have the keys of different indices, those with one key are one list. -/
theorem filter_flatMap_of_nodup {l : List β} {f : β → List α} {id : β → κ} {x : β}
    (hl : (l.map id).Nodup) (hkey : ∀ y ∈ l, ∀ a ∈ f y, key a = id y) (hx : x ∈ l) :
    (l.flatMap f).filter (key · = id x) = f x := by
  induction l with
  | nil => cases hx
  | cons y l ih =>
    obtain ⟨hnew, hl⟩ := List.nodup_cons.1 hl
    have hkey' : ∀ z ∈ l, ∀ a ∈ f z, key a = id z := fun z hz => hkey z (List.mem_cons_of_mem _ hz)
    rw [List.flatMap_cons, List.filter_append]
    rcases List.mem_cons.1 hx with rfl | hx
    · have hhere : (f x).filter (key · = id x) = f x :=
        List.filter_eq_self.2 fun a ha => decide_eq_true (hkey x List.mem_cons_self a ha)
      have hthere : (l.flatMap f).filter (key · = id x) = [] := by
        refine List.filter_eq_nil_iff.2 fun a ha hax => hnew ?_
        obtain ⟨z, hz, ha⟩ := List.mem_flatMap.1 ha
        rw [← of_decide_eq_true hax, hkey' z hz a ha]
        exact List.mem_map_of_mem hz
      rw [hhere, hthere, List.append_nil]
    · have hhere : (f y).filter (key · = id x) = [] := by
        refine List.filter_eq_nil_iff.2 fun a ha hax => hnew ?_
        rw [← hkey y List.mem_cons_self a ha, of_decide_eq_true hax]
        exact List.mem_map_of_mem hx
      rw [hhere, List.nil_append, ih hl hkey' hx]

/-- A list falls into its parts by key. -/
theorem perm_flatMap_filter {ks : List κ} (hks : ks.Nodup) {l : List α} (h : ∀ a ∈ l, key a ∈ ks) :
    (ks.flatMap fun k => l.filter (key · = k)).Perm l := by
  induction ks generalizing l with
  | nil =>
    rw [List.eq_nil_iff_forall_not_mem.2 fun a ha => List.not_mem_nil (h a ha)]
    exact .nil
  | cons k ks ih =>
    obtain ⟨hk, hks⟩ := List.nodup_cons.1 hks
    have hrest : ∀ a ∈ l.filter fun a => !decide (key a = k), key a ∈ ks := by
      intro a ha
      obtain ⟨ha, hne⟩ := List.mem_filter.1 ha
      exact (List.mem_cons.1 (h a ha)).resolve_left (by simpa using hne)
    have hparts : ∀ j ∈ ks, (l.filter fun a => !decide (key a = k)).filter (key · = j) =
        l.filter (key · = j) := by
      intro j hj
      rw [List.filter_filter]
      refine List.filter_congr fun a _ => ?_
      by_cases ha : key a = j
      · have hne : j ≠ k := fun he => hk (he ▸ hj)
        simp [ha, hne]
      · simp [ha]
    calc ((k :: ks).flatMap fun k => l.filter (key · = k))
        = l.filter (key · = k) ++
            ks.flatMap fun j => (l.filter fun a => !decide (key a = k)).filter (key · = j) := by
          rw [List.flatMap_cons, List.flatMap_def, List.flatMap_def, List.map_congr_left hparts]
      _ |>.Perm (l.filter (key · = k) ++ l.filter fun a => !decide (key a = k)) :=
          (ih hks hrest).append_left _
      _ |>.Perm l := List.filter_append_perm _ l

end

/-! ## Bodies -/

/-- Every statement carries its place as its index. -/
def Body.Indexed (b : Body) : Prop := ∀ i s, b.stmt? i = some s → s.index = i

theorem Body.indexed_of_build {d : Declarations} {p : Program} {m : MethodId} {b : Body}
    (hd : d.Built) (h : d.build = .ok p) (hb : p.body? m = some b) : b.Indexed :=
  fun _ _ hs => (Program.valid_of_build hd h).wellFormed.indexed hb hs

theorem Body.jumpsInside_of_build {d : Declarations} {p : Program} {m : MethodId} {b : Body}
    (h : d.build = .ok p) (hb : p.body? m = some b) : b.JumpsInside := by
  obtain ⟨-, hjumps, rfl⟩ := Program.build_ok h
  exact Declarations.checkJumps_ok_iff.1 hjumps m b hb

theorem Body.Indexed.map_index {b : Body} (h : b.Indexed) :
    b.stmts.map Stmt.index = List.range b.stmts.length := by
  refine List.ext_getElem (by simp) fun i hi hi' => ?_
  rw [List.getElem_map, List.getElem_range]
  exact h i _ (List.getElem?_eq_getElem (by simpa using hi'))

theorem Body.Indexed.nodup_map_stmt {b : Body} (h : b.Indexed) :
    (b.stmts.map fun s => Cfg.Node.stmt s.index).Nodup := by
  have hstmts : (b.stmts.map fun s => Cfg.Node.stmt s.index) =
      (List.range b.stmts.length).map .stmt := by
    rw [← h.map_index, List.map_map]
    rfl
  rw [hstmts]
  exact List.nodup_range.map fun i j hij => Cfg.Node.stmt.inj hij

theorem Body.Indexed.mem_stmts {b : Body} (h : b.Indexed) {s : Stmt} (hs : s ∈ b.stmts) :
    b.stmt? s.index = some s := by
  obtain ⟨i, hi⟩ := List.mem_iff_getElem?.1 hs
  rwa [h i s hi]

namespace Cfg

variable {b : Body} {e : Edge} {n : Node} {i : ℕ} {s : Stmt}

/-- The ways out of a statement as edges. -/
def edgesOf (length : ℕ) (s : Stmt) : List Edge :=
  (exits length s).map fun x => ⟨.stmt s.index, x.2, x.1⟩

/-- All edges that a body asks for, also those that lead nowhere. -/
def demanded (b : Body) : List Edge :=
  ⟨.entry, first b.stmts.length, .entry⟩ :: b.stmts.flatMap (edgesOf b.stmts.length)

theorem edges_ofBody (b : Body) :
    (ofBody b).edges = (demanded b).filter (·.target ∈ (ofBody b).nodes) := rfl

theorem source_of_mem_edgesOf {length : ℕ} (h : e ∈ edgesOf length s) :
    e.source = .stmt s.index := by
  obtain ⟨x, -, rfl⟩ := List.mem_map.1 h
  rfl

theorem source_demanded (h : e ∈ demanded b) : e.source ∈ (ofBody b).nodes := by
  rcases List.mem_cons.1 h with rfl | h
  · exact List.mem_cons_self
  · obtain ⟨s, hs, he⟩ := List.mem_flatMap.1 h
    rw [source_of_mem_edgesOf he]
    exact List.mem_cons_of_mem _ (List.mem_append_left _ (List.mem_map_of_mem hs))

/-! ## Nodes -/

theorem nodes_ofBody (h : b.Indexed) :
    (ofBody b).nodes = .entry :: (List.range b.stmts.length).map .stmt ++ [.exit] := by
  rw [← h.map_index, List.map_map]
  rfl

theorem nodup_nodes (h : b.Indexed) : (ofBody b).nodes.Nodup := by
  rw [nodes_ofBody h, List.cons_append, List.nodup_cons, List.nodup_append]
  refine ⟨by simp, List.nodup_range.map fun i j hij => Node.stmt.inj hij, by simp, by simp⟩

theorem stmt_mem_nodes (h : b.Indexed) : .stmt i ∈ (ofBody b).nodes ↔ i < b.stmts.length := by
  simp [nodes_ofBody h]

theorem exit_mem_nodes (b : Body) : .exit ∈ (ofBody b).nodes :=
  List.mem_append_right (Node.entry :: _) List.mem_cons_self

theorem next_mem_nodes (h : b.Indexed) : next b.stmts.length i ∈ (ofBody b).nodes := by
  unfold next
  split
  · exact (stmt_mem_nodes h).2 ‹_›
  · exact exit_mem_nodes b

theorem first_mem_nodes (h : b.Indexed) : first b.stmts.length ∈ (ofBody b).nodes := by
  unfold first
  split
  · exact exit_mem_nodes b
  · exact (stmt_mem_nodes h).2 (by omega)

/-! ## Edges -/

/-- A way out of a statement leads to a jump target, to the next node or to the exit. -/
theorem exits_cases {length : ℕ} {x : EdgeKind × Node} (h : x ∈ exits length s) :
    (∃ t ∈ s.instr.targets, x.2 = .stmt t) ∨ x.2 = next length s.index ∨ x.2 = .exit := by
  unfold exits at h
  unfold Instr.targets
  split at h <;> grind

/-- No edge is dropped. -/
theorem edges_eq_demanded (h : b.Indexed) (hjumps : b.JumpsInside) :
    (ofBody b).edges = demanded b := by
  rw [edges_ofBody, List.filter_eq_self]
  intro e he
  rw [decide_eq_true_eq]
  rcases List.mem_cons.1 he with rfl | he
  · exact first_mem_nodes h
  · obtain ⟨s, hs, he⟩ := List.mem_flatMap.1 he
    obtain ⟨x, hx, rfl⟩ := List.mem_map.1 he
    rcases exits_cases hx with ⟨t, ht, htarget⟩ | htarget | htarget
    · exact htarget ▸ (stmt_mem_nodes h).2 (hjumps s hs t ht)
    · exact htarget ▸ next_mem_nodes h
    · exact htarget ▸ exit_mem_nodes b

theorem outEdges_exit : (ofBody b).outEdges .exit = [] := List.map_eq_nil_iff.1 succs_exit

theorem inEdges_entry : (ofBody b).inEdges .entry = [] := List.map_eq_nil_iff.1 preds_entry

section
variable (h : b.Indexed) (hjumps : b.JumpsInside)
include h hjumps

/-- A statement has the ways out that it asks for. -/
theorem outEdges_stmt (hs : b.stmt? i = some s) :
    (ofBody b).outEdges (.stmt i) = edgesOf b.stmts.length s := by
  rw [outEdges, edges_eq_demanded h hjumps, demanded, List.filter_cons_of_neg (by simp),
    ← h i s hs]
  exact filter_flatMap_of_nodup h.nodup_map_stmt (fun _ _ _ => source_of_mem_edgesOf)
    (List.mem_of_getElem? hs)

theorem outEdges_entry :
    (ofBody b).outEdges .entry = [⟨.entry, first b.stmts.length, .entry⟩] := by
  rw [outEdges, edges_eq_demanded h hjumps, demanded, List.filter_cons_of_pos (by simp)]
  refine congrArg _ (List.filter_eq_nil_iff.2 fun e he hsource => ?_)
  obtain ⟨s, -, he⟩ := List.mem_flatMap.1 he
  simp [source_of_mem_edgesOf he] at hsource

/-- Node by node, the edges are listed in their order. -/
theorem flatMap_outEdges : (ofBody b).nodes.flatMap (ofBody b).outEdges = (ofBody b).edges := by
  have hstmts : b.stmts.flatMap (fun s => (ofBody b).outEdges (.stmt s.index)) =
      b.stmts.flatMap (edgesOf b.stmts.length) := by
    rw [List.flatMap_def, List.flatMap_def]
    exact congrArg _ (List.map_congr_left fun s hs => outEdges_stmt h hjumps (h.mem_stmts hs))
  have hnodes : (ofBody b).nodes =
      .entry :: (b.stmts.map (fun s => .stmt s.index) ++ [.exit]) := rfl
  rw [hnodes, List.flatMap_cons, List.flatMap_append, List.flatMap_map, hstmts,
    outEdges_entry h hjumps, List.flatMap_singleton, outEdges_exit, List.append_nil,
    edges_eq_demanded h hjumps]
  rfl

end

/-- The edges into all nodes are the edges. -/
theorem perm_flatMap_inEdges (h : b.Indexed) :
    ((ofBody b).nodes.flatMap (ofBody b).inEdges).Perm (ofBody b).edges :=
  perm_flatMap_filter (nodup_nodes h) fun _ he => (edge_cases he).1

end Cfg

end ObjectFlow
