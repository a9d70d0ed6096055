import Mathlib.Logic.Relation
import ObjectFlow.Proofs.Liveness

/-!
# Liveness along paths

`LiveAt b v n`: some path from the node `n` reads `v` and does not assign it before. These sets of
variables solve the equations of liveness, and every solution contains them, by induction on the
path (`least_liveAt`). So they are what both solvers find (`live_iff_path`), also at nodes that the
entry does not lead to and where no path leads to the exit.
-/

namespace ObjectFlow.Liveness

open Dataflow
open Relation (ReflTransGen)

variable {b : Body} {v : VarId} {m n : Cfg.Node} {l : SetFact VarId}

/-! ## Paths -/

/-- An edge leads from `m` to `n`, and the statement at `m` does not assign the variable. -/
def Spares (b : Body) (v : VarId) (m n : Cfg.Node) : Prop :=
  n ∈ (Cfg.ofBody b).succs m ∧ ∀ s, b.at? m = some s → v ∉ s.instr.def?

/-- The statement at a node reads the variable. -/
def Reads (b : Body) (v : VarId) (n : Cfg.Node) : Prop :=
  ∃ s, b.at? n = some s ∧ v ∈ s.instr.uses

/-- Some path from a node leads to a statement that reads the variable, and no statement before it
assigns the variable. -/
def LiveAt (b : Body) (v : VarId) (n : Cfg.Node) : Prop :=
  ∃ k, ReflTransGen (Spares b v) n k ∧ Reads b v k

theorem liveAt_iff : LiveAt b v n ↔ Reads b v n ∨ ∃ m, Spares b v n m ∧ LiveAt b v m := by
  constructor
  · rintro ⟨k, hpath, hread⟩
    rcases ReflTransGen.cases_head hpath with rfl | ⟨m, hstep, hrest⟩
    · exact .inl hread
    · exact .inr ⟨m, hstep, k, hrest, hread⟩
  · rintro (hread | ⟨m, hstep, k, hrest, hread⟩)
    · exact ⟨n, .refl, hread⟩
    · exact ⟨k, .head hstep hrest, hread⟩

/-- What is read is live, whatever is live after the node. -/
theorem mem_transfer_of_reads (h : Reads b v n) : v ∈ (analysis b).transfer n l := by
  obtain ⟨s, hs, huse⟩ := h
  exact (mem_transfer hs).2 (.inr huse)

/-- What is live after a node that spares it is live before. -/
theorem mem_transfer_of_spares (h : Spares b v n m) (hv : v ∈ l) :
    v ∈ (analysis b).transfer n l := by
  cases hs : b.at? n with
  | none => rwa [transfer_of_none hs]
  | some s => exact (mem_transfer hs).2 (.inl ⟨hv, h.2 s hs⟩)

/-- The transfer function makes what is live along paths before a node of what is so after it. -/
theorem mem_transfer_iff_liveAt (hl : ∀ v, v ∈ l ↔ ∃ m ∈ (Cfg.ofBody b).succs n, LiveAt b v m) :
    v ∈ (analysis b).transfer n l ↔ LiveAt b v n := by
  constructor
  · intro hv
    cases hs : b.at? n with
    | none =>
      rw [transfer_of_none hs, hl] at hv
      obtain ⟨m, hm, hlive⟩ := hv
      refine liveAt_iff.2 (.inr ⟨m, ⟨hm, fun s hs' => ?_⟩, hlive⟩)
      cases hs.symm.trans hs'
    | some s =>
      rcases (mem_transfer hs).1 hv with ⟨hv, hdef⟩ | huse
      · obtain ⟨m, hm, hlive⟩ := (hl v).1 hv
        refine liveAt_iff.2 (.inr ⟨m, ⟨hm, fun s' hs' => ?_⟩, hlive⟩)
        cases hs.symm.trans hs'
        exact hdef
      · exact liveAt_iff.2 (.inl ⟨s, hs, huse⟩)
  · intro hv
    rcases liveAt_iff.1 hv with hread | ⟨m, hstep, hlive⟩
    · exact mem_transfer_of_reads hread
    · exact mem_transfer_of_spares hstep ((hl v).2 ⟨m, hstep.1, hlive⟩)

/-! ## The least solution -/

/-- Only variables that some statement reads are ever live. -/
theorem LiveAt.mem_uses (h : LiveAt b v n) : v ∈ b.stmts.flatMap (·.instr.uses) := by
  obtain ⟨k, -, s, hs, huse⟩ := h
  exact List.mem_flatMap.2 ⟨s, Body.mem_stmts_of_at? hs, huse⟩

/-- Variables with a property that only variables of a list have are a set. -/
theorem exists_setOf {P : VarId → Prop} {vars : List VarId} (h : ∀ v, P v → v ∈ vars) :
    ∃ l : SetFact VarId, ∀ v, v ∈ l ↔ P v := by
  classical
  refine ⟨Std.ExtTreeSet.ofList (vars.filter P), fun v => ?_⟩
  simp only [Std.ExtTreeSet.mem_ofList, List.contains_iff_mem, List.mem_filter, decide_eq_true_eq]
  exact ⟨And.right, fun hv => ⟨h v hv, hv⟩⟩

/-- A solution contains what is live along paths. -/
theorem mem_of_liveAt {inp out : Cfg.Node → SetFact VarId}
    (hsol : Solves (analysis b) (Cfg.ofBody b).flow inp out) (hn : n ∈ (Cfg.ofBody b).nodes)
    (h : LiveAt b v n) : v ∈ out n := by
  obtain ⟨k, hpath, hread⟩ := h
  induction hpath using ReflTransGen.head_induction_on with
  | refl =>
    have hne : k ≠ .exit := by
      rintro rfl
      obtain ⟨s, hs, -⟩ := hread
      cases hs
    rw [hsol.output k hn hne]
    exact mem_transfer_of_reads hread
  | @head m n hstep _ ih =>
    obtain ⟨e, he, -, htarget⟩ := Cfg.mem_succs.1 hstep.1
    have hmem : n ∈ (Cfg.ofBody b).nodes := htarget ▸ (Cfg.edge_cases he).1
    have hne : m ≠ .exit := by
      rintro rfl
      have hnone := hstep.1
      rw [Cfg.succs_exit] at hnone
      cases hnone
    rw [hsol.output m hn hne]
    exact mem_transfer_of_spares hstep (hsol.bounds.flow m hn hne n hstep.1 hmem v (ih hmem))

/-- Liveness along paths solves the equations. -/
theorem solves_liveAt {inp out : Cfg.Node → SetFact VarId} (hout : ∀ n v, v ∈ out n ↔ LiveAt b v n)
    (hinp : ∀ n v, v ∈ inp n ↔ ∃ m ∈ (Cfg.ofBody b).succs n, LiveAt b v m) :
    Solves (analysis b) (Cfg.ofBody b).flow inp out where
  input n _ _ := by
    constructor
    · rintro x (rfl | ⟨m, hm, -, rfl⟩) v hv
      · cases Std.ExtTreeSet.not_mem_empty hv
      · exact (hinp n v).2 ⟨m, hm, (hout m v).1 hv⟩
    · intro z hz v hv
      obtain ⟨m, hm, hlive⟩ := (hinp n v).1 hv
      obtain ⟨e, he, -, rfl⟩ := Cfg.mem_succs.1 hm
      exact hz (.inr ⟨e.target, hm, (Cfg.edge_cases he).1, rfl⟩) v ((hout e.target v).2 hlive)
  output n _ _ := Std.ExtTreeSet.ext_mem fun v =>
    (hout n v).trans (mem_transfer_iff_liveAt (hinp n)).symm
  start _ := by
    have hnone : ∀ v, ¬ ∃ m ∈ (Cfg.ofBody b).succs .exit, LiveAt b v m := by
      rintro v ⟨m, hm, -⟩
      rw [Cfg.succs_exit] at hm
      cases hm
    constructor
    · refine Std.ExtTreeSet.ext_mem fun v => ?_
      exact iff_of_false (fun hv => hnone v ((hinp _ v).1 hv)) Std.ExtTreeSet.not_mem_empty
    · refine Std.ExtTreeSet.ext_mem fun v => ?_
      refine iff_of_false (fun hv => ?_) Std.ExtTreeSet.not_mem_empty
      rcases liveAt_iff.1 ((hout _ v).1 hv) with ⟨s, hs, -⟩ | ⟨m, hstep, hlive⟩
      · cases hs
      · exact hnone v ⟨m, hstep.1, hlive⟩

/-- The least solution is liveness along paths. -/
theorem least_liveAt (b : Body) : ∃ inp out, Least (analysis b) (Cfg.ofBody b).flow inp out ∧
    (∀ n v, v ∈ out n ↔ LiveAt b v n) ∧
      ∀ n v, v ∈ inp n ↔ ∃ m ∈ (Cfg.ofBody b).succs n, LiveAt b v m := by
  have hout : ∀ n, ∃ l : SetFact VarId, ∀ v, v ∈ l ↔ LiveAt b v n :=
    fun n => exists_setOf fun v hv => hv.mem_uses
  have hinp : ∀ n, ∃ l : SetFact VarId, ∀ v,
      v ∈ l ↔ ∃ m ∈ (Cfg.ofBody b).succs n, LiveAt b v m :=
    fun n => exists_setOf fun v hv => hv.elim fun m hm => hm.2.mem_uses
  choose out hout using hout
  choose inp hinp using hinp
  refine ⟨inp, out, ⟨solves_liveAt hout hinp, fun inp' out' hsol n hn => ?_⟩, hout, hinp⟩
  have hle : ∀ m ∈ (Cfg.ofBody b).nodes, out m ≤ out' m :=
    fun m hm v hv => mem_of_liveAt hsol hm ((hout m v).1 hv)
  refine ⟨fun v hv => ?_, hle n hn⟩
  obtain ⟨m, hm, hlive⟩ := (hinp n v).1 hv
  by_cases hne : n = .exit
  · subst hne
    rw [Cfg.succs_exit] at hm
    cases hm
  · obtain ⟨e, he, -, rfl⟩ := Cfg.mem_succs.1 hm
    have hnode := (Cfg.edge_cases he).1
    exact hsol.bounds.flow n hn hne _ hm hnode v (hle _ hnode v ((hout _ v).2 hlive))

/-! ## The solvers -/

/-- Both solvers end, before every node with the variables that are live along paths from it, and
after it with those that are live before some successor. -/
theorem live_iff_path (kind : SolverKind) (b : Body) :
    ∃ r, solve kind (analysis b) (Cfg.ofBody b).flow = some r ∧
      ∀ n ∈ (Cfg.ofBody b).nodes, ∃ before after, r.inFacts[n]? = some before ∧
        r.outFacts[n]? = some after ∧ ∀ v, (v ∈ before ↔ LiveAt b v n) ∧
          (v ∈ after ↔ ∃ m ∈ (Cfg.ofBody b).succs n, ∃ l, r.inFacts[m]? = some l ∧ v ∈ l) := by
  obtain ⟨r, hr⟩ := exists_solve kind b
  obtain ⟨inp, out, hl, hout, hinp⟩ := least_liveAt b
  have h := framework_liveness b
  have hhold := (ends_of_solve hr).holds h.rooted h.joins h.mono hl
  refine ⟨r, hr, fun n hn => ⟨out n, inp n, (hhold n hn).2, (hhold n hn).1, fun v =>
    ⟨hout n v, (hinp n v).trans (exists_congr fun m => and_congr_right fun hm => ?_)⟩⟩⟩
  obtain ⟨e, he, -, rfl⟩ := Cfg.mem_succs.1 hm
  have hin : r.inFacts[e.target]? = some (out e.target) := (hhold _ (Cfg.edge_cases he).1).2
  simp [hin, hout]

/-- Around a loop that nothing leaves: `x = x + y` reads and assigns `x`. -/
example :
    let b : Body := { stmts := [
      ⟨0, .assign ⟨0⟩ (.binary ⟨.arithmetic .add, ⟨0⟩, ⟨1⟩⟩)⟩,
      ⟨1, .goto 0⟩,
      ⟨2, .ret (some ⟨2⟩)⟩] }
    (solve .workList (analysis b) (Cfg.ofBody b).flow).map
      (fun r => (Cfg.ofBody b).nodes.map fun n => (r.inFacts[n]?).map (·.toList)) =
    some [some [⟨0⟩, ⟨1⟩], some [⟨0⟩, ⟨1⟩], some [⟨0⟩, ⟨1⟩], some [⟨2⟩], some []] := by
  decide +kernel

end ObjectFlow.Liveness
