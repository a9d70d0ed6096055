import ObjectFlow.DeadCode
import ObjectFlow.Proofs.ConstProp.Termination
import ObjectFlow.Proofs.Liveness

/-!
# Reports and solvers

Both solvers find the same live variables, so a report depends on the solver through the constants
alone (`analyze_eq_some`). On a body without quotients it does not depend on the solver at all
(`reports_agree`). With one it can: `reports_differ` gives a body on which the work list keeps a
value that sweeps take back.
-/

namespace ObjectFlow.DeadCode

open Dataflow

variable {holdsInt : VarId → Bool} {b : Body}

/-- The report for the constants that a solver finds, whichever solver finds the live variables. -/
theorem analyze_eq_some {kind kind' : SolverKind} {r : Solution Cfg.Node ConstProp.Fact}
    {live : Solution Cfg.Node (SetFact VarId)}
    (hr : solve kind (ConstProp.analysis holdsInt b) (Cfg.ofBody b).flow = some r)
    (hl : solve kind' (Liveness.analysis b) (Cfg.ofBody b).flow = some live) :
    analyze holdsInt kind b =
      some (deadStmts holdsInt (Cfg.ofBody b) r.inFacts live.outFacts) := by
  have h := framework_liveness b
  obtain ⟨live', hl'⟩ := Liveness.exists_solve kind b
  obtain ⟨-, hout⟩ := (ends_of_solve hl').facts_eq h.rooted h.joins h.mono (ends_of_solve hl)
  rw [analyze, hr, hl', ← hout]
  rfl

/-- On a body without quotients both solvers find the same constants before and after every node,
and the same statements are reported. -/
theorem reports_agree (holdsInt : VarId → Bool) (b : Body)
    (hb : ∀ s ∈ b.stmts, ¬ ConstProp.Quotient holdsInt s.instr) :
    (∃ r r', solve .workList (ConstProp.analysis holdsInt b) (Cfg.ofBody b).flow = some r ∧
      solve .sweep (ConstProp.analysis holdsInt b) (Cfg.ofBody b).flow = some r' ∧
      r.inFacts = r'.inFacts ∧ r.outFacts = r'.outFacts) ∧
    ∃ l, ∀ kind, analyze holdsInt kind b = some l := by
  have hroot := Cfg.rooted (b := b) (ConstProp.analysis holdsInt b)
  have hj := ConstProp.joins holdsInt b
  have hm : ∀ n ∈ (Cfg.ofBody b).flow.nodes,
      Monotone ((ConstProp.analysis holdsInt b).transfer n) :=
    fun n _ => ConstProp.monotone_transfer hb n
  have hsolve := exists_solve hroot hj hm (ConstProp.ranked holdsInt b)
  obtain ⟨r, hr⟩ := hsolve .workList
  have hfacts : ∀ kind r', solve kind (ConstProp.analysis holdsInt b) (Cfg.ofBody b).flow = some r' →
      r.inFacts = r'.inFacts ∧ r.outFacts = r'.outFacts :=
    fun kind r' hr' => (ends_of_solve hr).facts_eq hroot hj hm (ends_of_solve hr')
  constructor
  · obtain ⟨r', hr'⟩ := hsolve .sweep
    exact ⟨r, r', hr, hr', hfacts .sweep r' hr'⟩
  · obtain ⟨live, hl⟩ := Liveness.exists_solve .workList b
    refine ⟨deadStmts holdsInt (Cfg.ofBody b) r.inFacts live.outFacts, fun kind => ?_⟩
    obtain ⟨r', hr'⟩ := hsolve kind
    rw [(hfacts kind r' hr').1]
    exact analyze_eq_some hr' hl

/-- Two numbers are merged and compared. -/
theorem reports_agree_join : ∃ l, ∀ kind, analyze (fun _ => true) kind {
      params := [⟨0⟩]
      stmts := [
        ⟨0, .branch ⟨.eq, ⟨0⟩, ⟨0⟩⟩ 3⟩,
        ⟨1, .assign ⟨1⟩ (.literal (.int 1))⟩,
        ⟨2, .goto 4⟩,
        ⟨3, .assign ⟨1⟩ (.literal (.int 2))⟩,
        ⟨4, .ret (some ⟨1⟩)⟩] } = some l :=
  (reports_agree _ _ (by simp [ConstProp.Quotient])).2

/-- On one way to the join `q` is the constant one, on the other a quotient whose divisor becomes
zero when control comes back:

    0: if p == p goto 3
    1: q = 1
    2: goto 4
    3: q = p / b
    4: if q == q goto 6
    5: nop
    6: b = 0
    7: goto 0
-/
def detour : Body where
  params := [⟨0⟩]
  vars := [⟨0⟩, ⟨1⟩, ⟨2⟩]
  stmts := [
    ⟨0, .branch ⟨.eq, ⟨0⟩, ⟨0⟩⟩ 3⟩,
    ⟨1, .assign ⟨2⟩ (.literal (.int 1))⟩,
    ⟨2, .goto 4⟩,
    ⟨3, .assign ⟨2⟩ (.binary ⟨.arithmetic .div, ⟨0⟩, ⟨1⟩⟩)⟩,
    ⟨4, .branch ⟨.eq, ⟨2⟩, ⟨2⟩⟩ 6⟩,
    ⟨5, .nop⟩,
    ⟨6, .assign ⟨1⟩ (.literal (.int 0))⟩,
    ⟨7, .goto 0⟩]

/-- The first three variables hold whole numbers, and there are no others. -/
def three (v : VarId) : Bool := v.index < 3

theorem built_detour : ∃ (d : Declarations) (p : Program), d.Built ∧ d.build = .ok p ∧
    p.body? ⟨0⟩ = some detour ∧ p.holdsInt = three := by
  have h := Declarations.Built.empty.addClass "C" none [] (by simp) (by simp)
    (Declarations.addClass_first "C")
  replace h := h.addMethod ⟨0⟩ "m" [.int] .void true (by decide) (by decide) rfl
  replace h := h.addVar ⟨0⟩ "b" .int (by decide) (by decide) rfl
  replace h := h.addVar ⟨0⟩ "q" .int (by decide) (by decide) rfl
  replace h := h.addStmt ⟨0⟩ (.branch ⟨.eq, ⟨0⟩, ⟨0⟩⟩ 3) (by decide) (by decide) rfl
  replace h := h.addStmt ⟨0⟩ (.assign ⟨2⟩ (.literal (.int 1))) (by decide) (by decide) rfl
  replace h := h.addStmt ⟨0⟩ (.goto 4) (by decide) (by decide) rfl
  replace h := h.addStmt ⟨0⟩ (.assign ⟨2⟩ (.binary ⟨.arithmetic .div, ⟨0⟩, ⟨1⟩⟩)) (by decide)
    (by decide) rfl
  replace h := h.addStmt ⟨0⟩ (.branch ⟨.eq, ⟨2⟩, ⟨2⟩⟩ 6) (by decide) (by decide) rfl
  replace h := h.addStmt ⟨0⟩ .nop (by decide) (by decide) rfl
  replace h := h.addStmt ⟨0⟩ (.assign ⟨1⟩ (.literal (.int 0))) (by decide) (by decide) rfl
  replace h := h.addStmt ⟨0⟩ (.goto 0) (by decide) (by decide) rfl
  refine ⟨_, _, h, rfl, rfl, funext fun v => ?_⟩
  obtain ⟨_ | _ | _ | n⟩ := v
  · rfl
  · rfl
  · rfl
  · rfl

/-- What four sweeps find on `detour`. -/
def swept : State Cfg.Node ConstProp.Fact :=
  Sweep.after (ConstProp.analysis three detour) (Cfg.ofBody detour).flow 4

/-- The fourth sweep changes nothing. -/
theorem solve_detour : solve .sweep (ConstProp.analysis three detour) (Cfg.ofBody detour).flow =
    some (swept.solution .forward) := by
  refine Sweep.run_eq_after (k := 3) (by decide +kernel) (fun k hk => ?_) ?_
  · have h : ∀ k < 3, ∃ n ∈ (Cfg.ofBody detour).nodes,
        ((Sweep.after (ConstProp.analysis three detour) (Cfg.ofBody detour).flow (k + 1)).output
          (ConstProp.analysis three detour) n).toList ≠
        ((Sweep.after (ConstProp.analysis three detour) (Cfg.ofBody detour).flow k).output
          (ConstProp.analysis three detour) n).toList := by
      decide +kernel
    obtain ⟨n, -, hn⟩ := h k hk
    exact Sweep.changes_of_ne (ConstProp.joins _ _) (mt (congrArg ConstProp.Fact.toList) hn)
  · refine Sweep.changes_eq_false (ConstProp.joins _ _) fun n hn => ?_
    refine ConstProp.Fact.toList_injective ?_
    revert n
    decide +kernel

/-- The reports of two solvers that both end can differ: on `detour` the work list remembers that
`q` may be anything, while sweeps find that it is one and report statement 5. -/
theorem reports_differ : ∃ (d : Declarations) (p : Program), d.Built ∧ d.build = .ok p ∧
    p.body? ⟨0⟩ = some detour ∧
    (∃ r r', solve .workList (ConstProp.analysis p.holdsInt detour) (Cfg.ofBody detour).flow =
        some r ∧
      solve .sweep (ConstProp.analysis p.holdsInt detour) (Cfg.ofBody detour).flow = some r' ∧
      r.inFacts ≠ r'.inFacts ∧ r.outFacts ≠ r'.outFacts) ∧
    analyze p.holdsInt .workList detour = some [] ∧
    analyze p.holdsInt .sweep detour = some [5] := by
  obtain ⟨d, p, hd, hp, hbody, hint⟩ := built_detour
  refine ⟨d, p, hd, hp, hbody, ?_⟩
  rw [hint]
  obtain ⟨r, hr⟩ := ConstProp.exists_workList three detour
  have hnac : ((solve .workList (ConstProp.analysis three detour) (Cfg.ofBody detour).flow).map
      fun r => (r.inFacts[Cfg.Node.stmt 4]?.map (ConstProp.Fact.get · ⟨2⟩),
        r.outFacts[Cfg.Node.stmt 4]?.map (ConstProp.Fact.get · ⟨2⟩))) =
      some (some .nac, some .nac) := by
    decide +kernel
  rw [hr] at hnac
  obtain ⟨hin, hout⟩ := Prod.mk.inj (Option.some.inj hnac)
  have hone : swept.inputs[Cfg.Node.stmt 4]?.map (ConstProp.Fact.get · ⟨2⟩) =
      some (.constant 1) ∧
      swept.outputs[Cfg.Node.stmt 4]?.map (ConstProp.Fact.get · ⟨2⟩) = some (.constant 1) := by
    decide +kernel
  have hlive : ((solve .workList (Liveness.analysis detour) (Cfg.ofBody detour).flow).map
      fun live => deadStmts three (Cfg.ofBody detour) swept.inputs live.outFacts) = some [5] := by
    decide +kernel
  obtain ⟨live, hl, hdead⟩ := Option.map_eq_some_iff.1 hlive
  refine ⟨⟨r, _, hr, solve_detour, fun he => ?_, fun he => ?_⟩, by decide +kernel, ?_⟩
  · have h := hone.1.symm.trans (he ▸ hin)
    cases h
  · have h := hone.2.symm.trans (he ▸ hout)
    cases h
  · rw [analyze_eq_some solve_detour hl]
    exact congrArg some hdead

end ObjectFlow.DeadCode
