import ObjectFlow.Proofs.Cfg.Edges
import ObjectFlow.Proofs.DeadCode.Reached
import ObjectFlow.Proofs.DeadCode.Removal
import ObjectFlow.Proofs.Listing

/-!
# Reports

`Excludes holdsInt f i kind`: where the constants `f` hold before the instruction `i`, no run leaves
it along an edge of this kind. `MayLead holdsInt b constants m n`: some edge from `m` to `n` is not
excluded. The search for feasible nodes follows exactly these edges (`mem_reached_iff`). It collects
dead assignments at the nodes that it finds only, and every statement that it does not find is
reported anyway, so a report lists the statements that no such path leads to and all dead
assignments, ascending (`report_ascending`).
-/

namespace ObjectFlow.DeadCode

open Std (ExtTreeMap)
open Dataflow ConstProp
open Relation (ReflTransGen)

variable {holdsInt : VarId → Bool} {b : Body} {f : Fact} {i : Instr} {kind : Cfg.EdgeKind}
  {constants : ExtTreeMap Cfg.Node Fact} {m n : Cfg.Node}

/-! ## Excluded edges -/

/-- What constants rule out: the other way of a condition that is decided, the cases of a switch
that differ from its value, and its default if some case has the value. -/
inductive Excludes (holdsInt : VarId → Bool) (f : Fact) : Instr → Cfg.EdgeKind → Prop
  | ifTrue {cond target} : evalBinary holdsInt f cond.toBinary = .constant 0 →
      Excludes holdsInt f (.branch cond target) .ifTrue
  | ifFalse {cond target c} : evalBinary holdsInt f cond.toBinary = .constant c → c ≠ 0 →
      Excludes holdsInt f (.branch cond target) .ifFalse
  | switchCase {v cases default c value} : evalVar holdsInt f v = .constant c → value ≠ c →
      Excludes holdsInt f (.switch v cases default) (.switchCase value)
  | switchDefault {v cases default c} : evalVar holdsInt f v = .constant c →
      (∃ p ∈ cases, p.1 = c) → Excludes holdsInt f (.switch v cases default) .switchDefault

theorem excludes_branch {cond : Condition} {target : ℕ} :
    Excludes holdsInt f (.branch cond target) kind ↔
      ∃ c, evalBinary holdsInt f cond.toBinary = .constant c ∧
        (kind = .ifTrue ∧ c = 0 ∨ kind = .ifFalse ∧ c ≠ 0) := by
  constructor
  · intro h
    cases h with
    | ifTrue h => exact ⟨0, h, .inl ⟨rfl, rfl⟩⟩
    | ifFalse h hc => exact ⟨_, h, .inr ⟨rfl, hc⟩⟩
  · rintro ⟨c, h, ⟨rfl, rfl⟩ | ⟨rfl, hc⟩⟩
    · exact .ifTrue h
    · exact .ifFalse h hc

theorem excludes_switch {v : VarId} {cases : List (Int64 × ℕ)} {default : ℕ} :
    Excludes holdsInt f (.switch v cases default) kind ↔
      ∃ c, evalVar holdsInt f v = .constant c ∧
        ((∃ value, kind = .switchCase value ∧ value ≠ c) ∨
          kind = .switchDefault ∧ ∃ p ∈ cases, p.1 = c) := by
  constructor
  · intro h
    cases h with
    | switchCase h hc => exact ⟨_, h, .inl ⟨_, rfl, hc⟩⟩
    | switchDefault h hc => exact ⟨_, h, .inr ⟨rfl, hc⟩⟩
  · rintro ⟨c, h, ⟨value, rfl, hc⟩ | ⟨rfl, hc⟩⟩
    · exact .switchCase h hc
    · exact .switchDefault h hc

/-- Of the ways out of a statement those can be taken that are not excluded. -/
theorem mayTake_iff {length : ℕ} {s : Stmt} (h : (kind, n) ∈ Cfg.exits length s) :
    mayTake holdsInt f s.instr kind = true ↔ ¬ Excludes holdsInt f s.instr kind := by
  obtain ⟨j, instr⟩ := s
  unfold mayTake
  cases instr with
  | branch cond target =>
    dsimp only
    have hkind : kind = .ifTrue ∨ kind = .ifFalse := by
      simp only [Cfg.exits, List.mem_cons, Prod.mk.injEq, List.not_mem_nil, or_false] at h
      exact h.imp And.left And.left
    rw [excludes_branch]
    cases evalBinary holdsInt f cond.toBinary with
    | constant c =>
      rcases hkind with rfl | rfl <;> by_cases hc : c = 0 <;> simp [Value.constant?, hc]
    | _ => simp [Value.constant?]
  | switch v cases default =>
    dsimp only
    have hkind : (∃ value, kind = .switchCase value) ∨ kind = .switchDefault := by
      simp only [Cfg.exits, List.mem_append, List.mem_map, List.mem_singleton, Prod.mk.injEq] at h
      rcases h with ⟨c, -, hk, -⟩ | ⟨hk, -⟩
      · exact .inl ⟨c.1, hk.symm⟩
      · exact .inr hk
    rw [excludes_switch]
    cases evalVar holdsInt f v with
    | constant c =>
      rcases hkind with ⟨value, rfl⟩ | rfl
      · simp [Value.constant?]
      · have hany : (cases.any fun p => decide (p.1 = c)) = true ↔ ∃ p ∈ cases, p.1 = c := by
          simp only [List.any_eq_true, decide_eq_true_eq]
        simp only [Value.constant?, Bool.not_eq_true', ← Bool.not_eq_true, hany, reduceCtorEq,
          false_and, exists_false, true_and, false_or, Value.constant.injEq, exists_eq_left']
    | _ => simp [Value.constant?]
  | _ =>
    refine iff_of_true rfl fun hex => ?_
    cases hex

/-! ## Feasible paths -/

/-- An edge leads from `m` to `n` that the constants before `m` do not exclude. -/
def MayLead (holdsInt : VarId → Bool) (b : Body) (constants : ExtTreeMap Cfg.Node Fact)
    (m n : Cfg.Node) : Prop :=
  ∃ e ∈ (Cfg.ofBody b).outEdges m, e.target = n ∧ ∀ s f, b.at? m = some s →
    constants[m]? = some f → ¬ Excludes holdsInt f s.instr e.kind

theorem exists_feasible_iff (h : b.Indexed) (hjumps : b.JumpsInside) :
    (∃ e ∈ feasible holdsInt (Cfg.ofBody b) constants m, e.target = n) ↔
      MayLead holdsInt b constants m n := by
  refine exists_congr fun e => ?_
  rw [mem_feasible, and_assoc, and_comm (b := e.target = n)]
  refine and_congr_right fun he => and_congr_right fun _ => forall_congr' fun s =>
    forall_congr' fun f => forall_congr' fun hs => forall_congr' fun _ => ?_
  cases m with
  | entry => cases hs
  | exit => cases hs
  | stmt i =>
    rw [Cfg.outEdges_stmt h hjumps hs] at he
    obtain ⟨x, hx, rfl⟩ := List.mem_map.1 he
    exact mayTake_iff hx

/-- The search finds what paths of edges lead to that are not excluded. -/
theorem mem_reached_iff (h : b.Indexed) (hjumps : b.JumpsInside) :
    n ∈ reached holdsInt (Cfg.ofBody b) constants ↔
      ReflTransGen (MayLead holdsInt b constants) .entry n := by
  rw [mem_reached]
  simp only [exists_feasible_iff h hjumps]

/-! ## What is reported -/

/-- The statement at `i` assigns a value to a variable that is not live after it, and does nothing
else. -/
def AssignsDead (b : Body) (live : ExtTreeMap Cfg.Node (SetFact VarId)) (i : ℕ) : Prop :=
  ∃ v rhs after, b.stmt? i = some ⟨i, .assign v rhs⟩ ∧ rhs.isPure = true ∧
    live[Cfg.Node.stmt i]? = some after ∧ v ∉ after

/-- A statement is a dead assignment where the variables after it are known. -/
theorem assignsDead_iff (h : b.Indexed) {live : ExtTreeMap Cfg.Node (SetFact VarId)}
    (hlive : ∀ n ∈ (Cfg.ofBody b).nodes, ∃ after, live[n]? = some after) {i : ℕ} :
    AssignsDead b live i ↔
      ∃ s, b.stmt? i = some s ∧ isDeadAssignment live[Cfg.Node.stmt i]? s.instr = true := by
  constructor
  · rintro ⟨v, rhs, after, hs, hpure, hafter, hv⟩
    refine ⟨_, hs, isDeadAssignment_iff.2 ⟨v, rhs, rfl, fun l hl => ?_, hpure⟩⟩
    obtain rfl := Option.some.inj (hafter.symm.trans hl)
    exact hv
  · rintro ⟨s, hs, hdead⟩
    obtain ⟨after, hafter⟩ := hlive (.stmt i)
      ((Cfg.stmt_mem_nodes h).2 (List.getElem?_eq_some_iff.1 hs).1)
    obtain ⟨v, rhs, hinstr, hv, hpure⟩ := isDeadAssignment_iff.1 hdead
    refine ⟨v, rhs, after, ?_, hpure, hafter, hv after hafter⟩
    rw [hs, ← h i s hs, ← hinstr]

/-- Where the live variables after all statements are known, a report lists the statements that no
path leads to, and all dead assignments. -/
theorem mem_deadStmts_iff (h : b.Indexed) (hjumps : b.JumpsInside)
    {live : ExtTreeMap Cfg.Node (SetFact VarId)}
    (hlive : ∀ n ∈ (Cfg.ofBody b).nodes, ∃ after, live[n]? = some after) {i : ℕ} :
    i ∈ deadStmts holdsInt (Cfg.ofBody b) constants live ↔ i < b.stmts.length ∧
      (¬ ReflTransGen (MayLead holdsInt b constants) .entry (.stmt i) ∨ AssignsDead b live i) := by
  rw [mem_deadStmts, ← mem_reached_iff h hjumps, assignsDead_iff h hlive]
  constructor
  · rintro (⟨n, hn, s, hs, hdead, rfl⟩ | ⟨⟨s, hs, rfl⟩, hi⟩)
    · cases n with
      | entry => cases hs
      | exit => cases hs
      | stmt j =>
        obtain rfl := h j s hs
        exact ⟨(List.getElem?_eq_some_iff.1 hs).1, .inr ⟨s, hs, hdead⟩⟩
    · exact ⟨(List.getElem?_eq_some_iff.1 (h.mem_stmts hs)).1, .inl hi⟩
  · rintro ⟨hi, hreason⟩
    have hs : b.stmt? i = some b.stmts[i] := List.getElem?_eq_getElem hi
    by_cases hn : .stmt i ∈ reached holdsInt (Cfg.ofBody b) constants
    · obtain ⟨s, hs, hdead⟩ := hreason.resolve_left fun hnot => hnot hn
      exact .inl ⟨_, hn, s, hs, hdead, h i s hs⟩
    · exact .inr ⟨⟨_, List.mem_of_getElem? hs, h i _ hs⟩, hn⟩

theorem pairwise_lt_sorted (l : List ℕ) : (sorted l).Pairwise (· < ·) := by
  have h : Ascending (sorted l) := ascending_toList _
  exact List.Pairwise.imp Nat.compare_eq_lt.1 h

/-- The report on a body of a program lists, ascending, the statements that no path of edges leads
to which are not excluded, and all dead assignments. -/
theorem report_ascending {d : Declarations} {p : Program} (hd : d.Built) (h : d.build = .ok p)
    {m : MethodId} {b : Body} (hb : p.body? m = some b) :
    ∃ constants live l,
      solve .workList (analysis p.holdsInt b) (Cfg.ofBody b).flow = some constants ∧
      solve .workList (Liveness.analysis b) (Cfg.ofBody b).flow = some live ∧
      (∀ n ∈ (Cfg.ofBody b).nodes, (∃ before, constants.inFacts[n]? = some before) ∧
        ∃ after, live.outFacts[n]? = some after) ∧
      analyze p.holdsInt .workList b = some l ∧ l.Pairwise (· < ·) ∧
      ∀ i, i ∈ l ↔ i < b.stmts.length ∧
        (¬ ReflTransGen (MayLead p.holdsInt b constants.inFacts) .entry (.stmt i) ∨
          AssignsDead b live.outFacts i) := by
  have hindexed := Body.indexed_of_build hd h hb
  have hjumps := Body.jumpsInside_of_build h hb
  obtain ⟨r, hr⟩ := exists_workList p.holdsInt b
  obtain ⟨live, hl⟩ := Liveness.exists_solve .workList b
  obtain ⟨s, rfl, hs, -⟩ := (ends_of_solve hr).settled (Cfg.rooted _) (joins p.holdsInt b)
  obtain ⟨t, rfl, ht, -⟩ := Liveness.exists_settled (ends_of_solve hl)
  have hlive : ∀ n ∈ (Cfg.ofBody b).nodes, ∃ after, t.inputs[n]? = some after :=
    fun n hn => (ht.inputs n).2 hn
  refine ⟨_, _, _, hr, hl, fun n hn => ⟨(hs.inputs n).2 hn, hlive n hn⟩, ?_, ?_,
    fun i => mem_deadStmts_iff hindexed hjumps hlive⟩
  · rw [analyze, hr, hl]
    rfl
  · exact pairwise_lt_sorted _

/-- A branch and a switch that are decided, an unreachable loop with a dead assignment in it, and a
reachable dead assignment. -/
theorem report_ascending_loop : ∃ (d : Declarations) (p : Program) (b : Body)
    (constants : Solution Cfg.Node Fact) (live : Solution Cfg.Node (SetFact VarId)),
    d.Built ∧ d.build = .ok p ∧ p.body? ⟨0⟩ = some b ∧
    solve .workList (analysis p.holdsInt b) (Cfg.ofBody b).flow = some constants ∧
    solve .workList (Liveness.analysis b) (Cfg.ofBody b).flow = some live ∧
    analyze p.holdsInt .workList b = some [2, 3, 5, 6] ∧
    ∀ i, i ∈ [2, 3, 5, 6] ↔ i < b.stmts.length ∧
      (¬ ReflTransGen (MayLead p.holdsInt b constants.inFacts) .entry (.stmt i) ∨
        AssignsDead b live.outFacts i) := by
  have h := Declarations.Built.empty.addClass "C" none [] (by simp) (by simp)
    (Declarations.addClass_first "C")
  replace h := h.addMethod ⟨0⟩ "m" [.int] .void true (by decide) (by decide) rfl
  replace h := h.addStmt ⟨0⟩ (.assign ⟨0⟩ (.literal (.int 1))) (by decide) (by decide) rfl
  replace h := h.addStmt ⟨0⟩ (.branch ⟨.eq, ⟨0⟩, ⟨0⟩⟩ 4) (by decide) (by decide) rfl
  replace h := h.addStmt ⟨0⟩ (.assign ⟨0⟩ (.literal (.int 5))) (by decide) (by decide) rfl
  replace h := h.addStmt ⟨0⟩ (.goto 2) (by decide) (by decide) rfl
  replace h := h.addStmt ⟨0⟩ (.switch ⟨0⟩ [(1, 6), (2, 5), (1, 6)] 5) (by decide) (by decide) rfl
  replace h := h.addStmt ⟨0⟩ .nop (by decide) (by decide) rfl
  replace h := h.addStmt ⟨0⟩ (.assign ⟨0⟩ (.literal (.int 7))) (by decide) (by decide) rfl
  replace h := h.addStmt ⟨0⟩ (.ret none) (by decide) (by decide) rfl
  obtain ⟨constants, live, l, hconstants, hlive, -, hl, -, hmem⟩ :=
    report_ascending h rfl (m := ⟨0⟩) rfl
  obtain rfl : l = [2, 3, 5, 6] := Option.some.inj (hl.symm.trans (by decide +kernel))
  exact ⟨_, _, _, constants, live, h, rfl, rfl, hconstants, hlive, hl, hmem⟩

end ObjectFlow.DeadCode
