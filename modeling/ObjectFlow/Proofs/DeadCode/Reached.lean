import ObjectFlow.DeadCode
import ObjectFlow.Proofs.ConstProp.Transfer
import ObjectFlow.Proofs.Liveness
import ObjectFlow.Proofs.Search

/-!
# Unreachable statements

`Visits holdsInt b n S`: a run arrives at the node `n` with the store `S`, and at each branch on
whole numbers it goes where the condition sends it. Edges that such a run takes are feasible
(`mayTake_of_takes`), because the constants cover the run, so no run leaves the nodes that the search
finds (`mem_reached_of_visits`). What is reported without being a dead assignment is executed by no
run (`visited_statements_reached`).
-/

namespace ObjectFlow.DeadCode

open Std (ExtTreeMap)
open Dataflow ConstProp
open Relation (ReflTransGen)

/-! ## Runs -/

/-- The ways out of an instruction. A branch on whole numbers goes where its condition sends it, a
switch on a whole number goes to a case of this number, or to the default if there is none. -/
def Takes (holdsInt : VarId → Bool) (S : Store) (i : Instr) (kind : Cfg.EdgeKind) : Prop :=
  match i with
  | .branch cond _ => holdsInt cond.lhs → holdsInt cond.rhs →
      ∃ x y, S cond.lhs = some x ∧ S cond.rhs = some y ∧
        kind = if cond.op.holds x y then .ifTrue else .ifFalse
  | .switch v cases _ => holdsInt v →
      ∃ x, S v = some x ∧ match kind with
        | .switchCase value => value = x
        | .switchDefault => ∀ p ∈ cases, p.1 ≠ x
        | _ => False
  | _ => True

/-- A run visits a node with a store. It starts at the entry, where the parameters that hold numbers
are defined and nothing else is. -/
inductive Visits (holdsInt : VarId → Bool) (b : Body) : Cfg.Node → Store → Prop
  | entry {S : Store} : (∀ v, (∃ x, S v = some x) ↔ v ∈ b.params ∧ holdsInt v) →
      Visits holdsInt b .entry S
  | step {m S T} {e : Cfg.Edge} : Visits holdsInt b m S → Passes holdsInt b m S T →
      e ∈ (Cfg.ofBody b).outEdges m →
      (∀ s, b.at? m = some s → Takes holdsInt S s.instr e.kind) → Visits holdsInt b e.target T

variable {holdsInt : VarId → Bool} {b : Body} {f : Fact} {S T : Store} {n : Cfg.Node}

/-- Where runs choose their ways at will they still arrive. -/
theorem Visits.arrives (h : Visits holdsInt b n S) : Arrives holdsInt b n S := by
  induction h with
  | entry h => exact .entry h
  | step _ hpass he _ ih => exact .step ih hpass (List.mem_map_of_mem he)

/-! ## Feasible edges -/

/-- The value of a condition on numbers that a fact covers. -/
theorem evalBinary_toBinary {cond : Condition} {x y : Int64} (hf : f.Covers S)
    (hl : holdsInt cond.lhs) (hr : holdsInt cond.rhs) (hx : S cond.lhs = some x)
    (hy : S cond.rhs = some y) :
    (evalBinary holdsInt f cond.toBinary).Covers (if cond.op.holds x y then 1 else 0) := by
  rw [evalBinary, Condition.toBinary, evalVar_of_holdsInt hl, evalVar_of_holdsInt hr]
  exact covers_evalOp (hf _ x hx) (hf _ y hy) fun hdiv => by cases hdiv

/-- A condition on variables that do not both hold numbers is not decided. -/
theorem evalBinary_toBinary_of_not {cond : Condition}
    (h : ¬ (holdsInt cond.lhs ∧ holdsInt cond.rhs)) :
    evalBinary holdsInt f cond.toBinary = .nac := by
  refine evalOp_eq_nac ?_ fun hdiv => by cases hdiv
  rw [not_and_or, Bool.not_eq_true, Bool.not_eq_true] at h
  exact h.imp evalVar_of_not evalVar_of_not

/-- The way that a run takes can be taken for all that the fact before the instruction says. -/
theorem mayTake_of_takes {i : Instr} {kind : Cfg.EdgeKind} (hf : f.Covers S)
    (h : Takes holdsInt S i kind) : mayTake holdsInt f i kind = true := by
  unfold mayTake
  cases i with
  | branch cond target =>
    dsimp only
    by_cases hint : holdsInt cond.lhs ∧ holdsInt cond.rhs
    · obtain ⟨x, y, hx, hy, rfl⟩ := h hint.1 hint.2
      rcases evalBinary_toBinary hf hint.1 hint.2 hx hy with hv | hv
      · rw [hv]
        rfl
      · rw [hv]
        cases cond.op.holds x y with
        | false => rfl
        | true => rfl
    · rw [evalBinary_toBinary_of_not hint]
      rfl
  | switch v cases default =>
    dsimp only
    cases hv : holdsInt v with
    | false =>
      rw [evalVar_of_not hv]
      rfl
    | true =>
      obtain ⟨x, hx, hkind⟩ := h hv
      rw [evalVar_of_holdsInt hv]
      rcases hf v x hx with hval | hval
      · rw [hval]
        rfl
      · rw [hval]
        cases kind with
        | switchCase value => exact decide_eq_true hkind
        | switchDefault =>
          rw [Value.constant?, Bool.not_eq_true', List.any_eq_false]
          intro p hp he
          exact hkind p hp (of_decide_eq_true he)
        | _ => exact hkind.elim
  | _ => rfl

theorem mem_feasible {g : Cfg} {constants : ExtTreeMap Cfg.Node Fact} {e : Cfg.Edge} :
    e ∈ feasible holdsInt g constants n ↔ e ∈ g.outEdges n ∧
      ∀ s f, g.stmt? n = some s → constants[n]? = some f →
        mayTake holdsInt f s.instr e.kind = true := by
  unfold feasible
  split
  · rename_i s f hs hf
    rw [List.mem_filter]
    refine and_congr_right fun _ => ⟨fun h s' f' hs' hf' => ?_, fun h => h s f hs hf⟩
    cases hs.symm.trans hs'
    cases hf.symm.trans hf'
    exact h
  · rename_i hnone
    exact ⟨fun h => ⟨h, fun s f hs hf => (hnone s f hs hf).elim⟩, And.left⟩

/-! ## The search -/

/-- Edges do not leave the nodes of a body. -/
theorem encloses_nodes (constants : ExtTreeMap Cfg.Node Fact) :
    Encloses (fun n => (feasible holdsInt (Cfg.ofBody b) constants n).map Cfg.Edge.target) .entry
      (Cfg.ofBody b).nodes where
  start := List.mem_cons_self
  next n _ m hm := by
    obtain ⟨e, he, rfl⟩ := List.mem_map.1 hm
    exact (Cfg.edge_cases (List.mem_of_mem_filter (mem_feasible.1 he).1)).1

/-- What a search along feasible edges finds. -/
theorem mem_reached {constants : ExtTreeMap Cfg.Node Fact} :
    n ∈ reached holdsInt (Cfg.ofBody b) constants ↔
      ReflTransGen (fun m n => ∃ e ∈ feasible holdsInt (Cfg.ofBody b) constants m, e.target = n)
        .entry n := by
  simp only [← List.mem_map]
  exact mem_breadthFirst (encloses_nodes constants) le_rfl

/-- No run leaves the nodes that are found with the constants of a solver. -/
theorem mem_reached_of_visits {kind : SolverKind} {r : Solution Cfg.Node Fact}
    (hr : Ends kind (analysis holdsInt b) (Cfg.ofBody b).flow r) (h : Visits holdsInt b n S) :
    n ∈ reached holdsInt (Cfg.ofBody b) r.inFacts := by
  obtain ⟨s, rfl, hf, hs⟩ := hr.settled (Cfg.rooted _) (joins holdsInt b)
  rw [mem_reached]
  induction h with
  | entry => exact .refl
  | @step m S T e hm _ he htakes ih =>
    refine ih.tail ⟨e, mem_feasible.2 ⟨he, fun t f ht hin => ?_⟩, rfl⟩
    obtain ⟨f', -, hin', -, hcov, -⟩ := covers_of_arrives hf hs hm.arrives
    cases hin.symm.trans hin'
    exact mayTake_of_takes hcov (htakes t ht)

/-! ## Reports -/

/-- A statement is reported if it is a dead assignment at a node that was found, or if it was not
found. -/
theorem mem_deadStmts {g : Cfg} {constants : ExtTreeMap Cfg.Node Fact}
    {live : ExtTreeMap Cfg.Node (SetFact VarId)} {i : ℕ} :
    i ∈ deadStmts holdsInt g constants live ↔
      (∃ n ∈ reached holdsInt g constants, ∃ s, g.stmt? n = some s ∧
        isDeadAssignment live[n]? s.instr = true ∧ s.index = i) ∨
      (∃ s ∈ g.body.stmts, s.index = i) ∧ .stmt i ∉ reached holdsInt g constants := by
  simp only [deadStmts, mem_sorted, List.mem_append, List.mem_filterMap, List.mem_filter,
    List.mem_map, Option.bind_eq_some_iff, Option.ite_none_right_eq_some, Option.some.injEq,
    decide_eq_true_eq]

/-- With the work list, which always ends, no run leaves the nodes that are found, and what is
reported without being a dead assignment is executed by no run. -/
theorem visited_statements_reached (holdsInt : VarId → Bool) (b : Body) :
    ∃ r live, solve .workList (analysis holdsInt b) (Cfg.ofBody b).flow = some r ∧
      solve .workList (Liveness.analysis b) (Cfg.ofBody b).flow = some live ∧
      analyze holdsInt .workList b =
        some (deadStmts holdsInt (Cfg.ofBody b) r.inFacts live.outFacts) ∧
      (∀ n S, Visits holdsInt b n S → n ∈ reached holdsInt (Cfg.ofBody b) r.inFacts) ∧
      ∀ i ∈ deadStmts holdsInt (Cfg.ofBody b) r.inFacts live.outFacts,
        (∀ n ∈ reached holdsInt (Cfg.ofBody b) r.inFacts, ∀ s, b.at? n = some s → s.index = i →
          isDeadAssignment live.outFacts[n]? s.instr = false) →
        ∀ S, ¬ Visits holdsInt b (.stmt i) S := by
  obtain ⟨r, hr⟩ := exists_workList holdsInt b
  obtain ⟨live, hl⟩ := Liveness.exists_solve .workList b
  have hvisits : ∀ n S, Visits holdsInt b n S → n ∈ reached holdsInt (Cfg.ofBody b) r.inFacts :=
    fun n S => mem_reached_of_visits (ends_of_solve hr)
  refine ⟨r, live, hr, hl, ?_, hvisits, fun i hi hnot S hS => ?_⟩
  · rw [analyze, hr, hl]
    rfl
  · rcases mem_deadStmts.1 hi with ⟨n, hn, s, hs, hdead, rfl⟩ | ⟨-, hi⟩
    · rw [hnot n hn s hs rfl] at hdead
      cases hdead
    · exact hi (hvisits _ S hS)

/-- A run through a branch that is decided: it visits what is found, and one statement is not. -/
theorem visited_statements_reached_branch : ∃ (b : Body) (r : Solution Cfg.Node Fact) (S : Store),
    solve .workList (analysis (fun _ => true) b) (Cfg.ofBody b).flow = some r ∧
      Visits (fun _ => true) b (.stmt 3) S ∧
      .stmt 3 ∈ reached (fun _ => true) (Cfg.ofBody b) r.inFacts ∧
      .stmt 2 ∉ reached (fun _ => true) (Cfg.ofBody b) r.inFacts := by
  let b : Body := {
    stmts := [
      ⟨0, .assign ⟨0⟩ (.literal (.int 1))⟩,
      ⟨1, .branch ⟨.eq, ⟨0⟩, ⟨0⟩⟩ 3⟩,
      ⟨2, .nop⟩,
      ⟨3, .nop⟩] }
  let S : Store := Function.update (fun _ => none) ⟨0⟩ (some 1)
  have h0 : Visits (fun _ => true) b .entry fun _ => none := .entry fun v => by simp [b]
  have h1 : Visits (fun _ => true) b (.stmt 0) fun _ => none :=
    .step (e := ⟨.entry, .stmt 0, .entry⟩) h0 rfl (by decide) fun s hs => by cases hs
  have h2 : Visits (fun _ => true) b (.stmt 1) S := by
    refine .step (e := ⟨.stmt 0, .stmt 1, .fallThrough⟩) h1 ?_ (by decide) fun s hs => ?_
    · refine .set ⟨by simp [Instr.uses, Exp.uses], by simp [Instr.rhs?]⟩ rfl rfl fun rhs h => ?_
      cases h
      exact .int
    · cases hs
      trivial
  have h3 : Visits (fun _ => true) b (.stmt 3) S := by
    refine .step (e := ⟨.stmt 1, .stmt 3, .ifTrue⟩) h2 ?_ (by decide) fun s hs => ?_
    · exact .keep ⟨by simp [Instr.uses, S], by simp [Instr.rhs?]⟩ (by simp [Instr.def?])
    · cases hs
      exact fun _ _ => ⟨1, 1, by simp [S], by simp [S], rfl⟩
  obtain ⟨r, -, hr, -, -, hvisits, -⟩ := visited_statements_reached (fun _ => true) b
  have hpruned : (solve .workList (analysis (fun _ => true) b) (Cfg.ofBody b).flow).map
      (fun r => decide (.stmt 2 ∈ reached (fun _ => true) (Cfg.ofBody b) r.inFacts)) =
      some false := by
    decide +kernel
  rw [hr] at hpruned
  exact ⟨b, r, S, hr, h3, hvisits _ S h3, of_decide_eq_false (Option.some.inj hpruned)⟩

end ObjectFlow.DeadCode
