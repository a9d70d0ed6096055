import ObjectFlow.Proofs.Dataflow.Mirror

/-!
# Two loops in one

For the client that an analysis is, the two loops of a solver do what the one loop on inputs and
outputs does (`WorkList.run_eq`, `Sweep.run_eq`). For a forward analysis the inputs are the facts
before the nodes, turn by turn; only where a node had one of its facts without the other would the
work lists differ, and no node ever does (`WorkList.Loop.Paired`). A backward analysis is the
forward one in the mirror, on both sides.
-/

namespace ObjectFlow.Dataflow

open Std (ExtTreeMap TransOrd LawfulEqOrd)

variable {N F : Type} {a : Analysis N F} {g : FlowGraph N} {n : N}

/-! ## Analyses in a mirror -/

/-- The analysis that goes the other way. -/
def Analysis.mirror (a : Analysis N F) : Analysis N F :=
  { a with direction := if a.direction = .forward then .backward else .forward }

namespace Analysis

theorem sources_mirror : a.mirror.sources g.reverse n = a.sources g n := by
  unfold mirror sources
  cases a.direction <;> rfl

theorem targets_mirror : a.mirror.targets g.reverse n = a.targets g n := by
  unfold mirror targets
  cases a.direction <;> rfl

theorem start_mirror : a.mirror.start g.reverse = a.start g := by
  unfold mirror start
  cases a.direction <;> rfl

theorem direction_mirror (h : a.direction ≠ .forward) : a.mirror.direction = .forward := by
  simp [mirror, h]

theorem order_mirror [DecidableEq N] : a.mirror.order g.reverse = a.order g := by
  unfold order
  rw [start_mirror]
  unfold mirror
  cases a.direction <;> simp [FlowGraph.reverse]

end Analysis

section
variable [Ord N]

/-- The facts before the nodes in the place of those after them, with the same visits. -/
def Solution.mirror (r : Solution N F) : Solution N F :=
  { r with inFacts := r.outFacts, outFacts := r.inFacts }

theorem Solution.mirror_injective : Function.Injective (mirror : Solution N F → Solution N F) :=
  Function.LeftInverse.injective (g := mirror) fun _ => rfl

theorem State.solution_mirror (s : State N F) :
    s.solution a.mirror.direction = (s.solution a.direction).mirror := by
  unfold Analysis.mirror
  cases a.direction <;> rfl

variable [TransOrd N]

theorem State.gather_mirror (s : State N F) (x : F) :
    s.gather a.mirror g.reverse n x = s.gather a g n x := by
  rw [gather, gather, Analysis.sources_mirror]
  rfl

theorem State.start_mirror [DecidableEq N] [LawfulEqOrd N] :
    State.start a.mirror g.reverse = State.start a g := by
  have hnodes : g.reverse.nodes = g.nodes.reverse := rfl
  simp only [start, Analysis.start_mirror, hnodes, foldl_insert_reverse]
  rfl

variable [DecidableEq F]

theorem WorkList.step_mirror : step a.mirror g.reverse = step a g := by
  funext s
  simp only [step, State.visit, State.gather_mirror, Analysis.targets_mirror]
  rfl

theorem WorkList.run_mirror [DecidableEq N] [LawfulEqOrd N] (fuel : ℕ) :
    run a.mirror g.reverse fuel = (run a g fuel).map Solution.mirror := by
  simp only [run, State.start, State.start_mirror, Analysis.order_mirror, step_mirror,
    State.solution_mirror, Option.map_map]
  rfl

theorem Sweep.visit_mirror : visit a.mirror g.reverse = visit a g := by
  funext s n
  simp only [visit, State.gather_mirror]
  rfl

theorem Sweep.sweep_mirror (l : List N) (s : State N F) :
    sweep a.mirror g.reverse l s = sweep a g l s := by
  induction l generalizing s with
  | nil => rfl
  | cons n l ih => simp only [sweep, visit_mirror, ih]

theorem Sweep.sweeps_mirror [DecidableEq N] (fuel : ℕ) (s : State N F) :
    sweeps a.mirror g.reverse fuel s = sweeps a g fuel s := by
  induction fuel generalizing s with
  | zero => rfl
  | succ fuel ih => simp only [sweeps, Analysis.order_mirror, sweep_mirror, ih]

theorem Sweep.run_mirror [DecidableEq N] [LawfulEqOrd N] (fuel : ℕ) :
    run a.mirror g.reverse fuel = (run a g fuel).map Solution.mirror := by
  simp only [run, State.start_mirror, sweeps_mirror, State.solution_mirror, Option.map_map]
  rfl

end

/-! ## Analyses as clients -/

variable [DecidableEq F]

/-- An analysis tells of a new output when it is another one. -/
def Client.ofAnalysis (a : Analysis N F) : Client N F where
  forward := decide (a.direction = .forward)
  boundary _ := a.boundary
  initial := a.initial
  meet := a.meet
  transfer n input output := (decide (a.transfer n input ≠ output), a.transfer n input)

theorem Client.ofAnalysis_mirror : Client.ofAnalysis a.mirror = (Client.ofAnalysis a).mirror := by
  obtain ⟨direction, boundary, initial, meet, transfer, capacity⟩ := a
  cases direction <;> rfl

variable [Ord N]

/-- The facts of a trace, and its visits in their order. -/
def Trace.solution (t : Trace N F) : Solution N F :=
  ⟨t.before, t.after, t.calls.reverse.map fun c => (c.node, c.input)⟩

/-- The facts before the nodes as inputs. -/
def Trace.state (t : Trace N F) : State N F :=
  ⟨t.before, t.after, t.calls.map fun c => (c.node, c.input)⟩

def WorkList.Loop.state (s : WorkList.Loop N F) : WorkList.State N F :=
  { s.toTrace.state with queue := s.queue, queued := s.queued }

variable [TransOrd N]

/-! ## Forward analyses -/

section
variable (hforward : a.direction = .forward)
include hforward

omit [DecidableEq F] [Ord N] [TransOrd N] in
theorem Analysis.order_eq [DecidableEq N] : a.order g = g.nodes.filter (· ≠ g.entry) := by
  simp [order, start, hforward]

theorem Trace.state_start [DecidableEq N] :
    (Trace.start (.ofAnalysis a) g).state = .start a g := by
  rw [start_eq]
  simp [state, State.start, Client.first, Client.ofAnalysis, Analysis.start, hforward]

theorem State.gather_eq_gather (s : State N F) (fact : F) :
    s.gather a g n fact = (Client.ofAnalysis a).gather s.outputs (g.preds n) fact := by
  have hsources : a.sources g n = g.preds n := by simp [Analysis.sources, hforward]
  rw [State.gather, hsources]
  rfl

end

namespace WorkList

variable {s t : Loop N F}

omit [DecidableEq F] in
theorem Loop.state_call (s : Loop N F) (n : N) : s.state.call n = (s.call n).state := by
  unfold State.call call
  have hqueued : n ∈ s.state.queued ↔ n ∈ s.queued := Iff.rfl
  simp only [hqueued, apply_ite Loop.state]
  rfl

/-- Every node has both of its facts or none. -/
def Loop.Paired (s : Loop N F) : Prop :=
  ∀ n : N, s.before[n]?.isSome = s.after[n]?.isSome

omit [DecidableEq F] in
theorem Loop.paired_call (s : Loop N F) (n : N) : (s.call n).Paired ↔ s.Paired := by
  unfold call
  split <;> exact Iff.rfl

theorem step_state (hforward : a.direction = .forward) (hs : s.Paired) :
    step a g s.state = (forwardTurn (.ofAnalysis a) g s).map Loop.state := by
  obtain ⟨⟨forward, before, after, calls⟩, queue, queued⟩ := s
  cases queue with
  | nil => rfl
  | cons n queue =>
    have hpair : before[n]?.isSome = after[n]?.isSome := hs n
    simp only [step, forwardTurn, Loop.state, Trace.state]
    cases hbefore : before[n]? with
    | none => rfl
    | some fact =>
      cases hafter : after[n]? with
      | none => simp [hbefore, hafter] at hpair
      | some output =>
        have htargets : a.targets g n = g.succs n := by simp [Analysis.targets, hforward]
        simp only [State.visit, State.gather_eq_gather hforward, htargets, Option.map_some]
        generalize (Client.ofAnalysis a).gather after (g.preds n) fact = input
        by_cases hnew : a.transfer n input = output
        · simp [Client.ofAnalysis, hnew, Loop.state, Trace.state]
        · simp only [Client.ofAnalysis, hnew, ne_eq, not_false_eq_true, decide_true, if_true,
            if_false, ← List.foldl_hom Loop.state Loop.state_call]
          rfl

omit [DecidableEq F] in
/-- Facts are replaced, never added. -/
theorem isSome_insert [LawfulEqOrd N] {facts : ExtTreeMap N F} {x y : F} (h : facts[n]? = some x)
    (m : N) : (facts.insert n y)[m]?.isSome = facts[m]?.isSome := by
  rw [ExtTreeMap.getElem?_insert]
  split
  · rename_i hm
    obtain rfl := LawfulEqOrd.eq_of_compare hm
    rw [h]
    rfl
  · rfl

omit [DecidableEq F] in
theorem Loop.Paired.forwardTurn [LawfulEqOrd N] {c : Client N F} (h : s.Paired)
    (ht : forwardTurn c g s = some t) : t.Paired := by
  unfold WorkList.forwardTurn at ht
  split at ht
  · cases ht
  · rename_i n queue hqueue
    dsimp only at ht
    split at ht
    · cases ht
      exact h
    · rename_i fact hbefore
      split at ht
      · cases ht
        exact fun m => (isSome_insert hbefore m).trans (h m)
      · rename_i output hafter
        cases ht
        have hput : ∀ input new calls queued, Paired { s with
            before := s.before.insert n input
            after := s.after.insert n new
            calls, queue, queued } :=
          fun input new _ _ m => by rw [isSome_insert hbefore, isSome_insert hafter, h m]
        split
        · refine List.foldlRecOn (motive := Paired) _ _ (hput _ _ _ _) fun s hs n _ => ?_
          exact (paired_call s n).2 hs
        · exact hput _ _ _ _

theorem run_eq_of_forward [DecidableEq N] [LawfulEqOrd N] (hforward : a.direction = .forward)
    (fuel : ℕ) : run a g fuel =
      ((Client.ofAnalysis a).run g .workList fuel).map Trace.solution := by
  have hstart : State.start a g = (forwardStart (.ofAnalysis a) g).state := by
    simp only [State.start, ← Trace.state_start hforward, Analysis.order_eq hforward]
    rfl
  have hpaired : (forwardStart (.ofAnalysis a) g).Paired := fun n => by
    simp only [forwardStart, Trace.start_eq]
  have hclient : (Client.ofAnalysis a).forward = true := by simp [Client.ofAnalysis, hforward]
  have hrun := iterate_conj (n := fuel) (fun s t h ht => h.forwardTurn ht)
    (fun s hs => step_state (g := g) hforward hs) hpaired
  rw [run, hstart, hrun]
  simp only [Client.run, hclient, Option.map_map, hforward]
  congr 1
  funext s
  simp [Trace.solution, Loop.state, Trace.state, Dataflow.State.solution]

end WorkList

/-! ## Sweeps forward -/

namespace Sweep

variable (hforward : a.direction = .forward)
include hforward

theorem visit_state (s : Loop N F) (n : N) :
    (forwardVisit (.ofAnalysis a) g s n).changed =
        (s.changed || (visit a g s.toTrace.state n).1) ∧
      (forwardVisit (.ofAnalysis a) g s n).toTrace.state = (visit a g s.toTrace.state n).2 := by
  simp only [visit, forwardVisit, State.gather_eq_gather hforward]
  have houtputs : s.toTrace.state.outputs = s.after := rfl
  rw [houtputs]
  cases s.after[n]? with
  | none => simp [Trace.state, Client.ofAnalysis]
  | some output => simp [Trace.state, Client.ofAnalysis]

theorem sweep_state (l : List N) (s : Loop N F) :
    (l.foldl (forwardVisit (.ofAnalysis a) g) s).changed =
        (s.changed || (sweep a g l s.toTrace.state).1) ∧
      (l.foldl (forwardVisit (.ofAnalysis a) g) s).toTrace.state =
        (sweep a g l s.toTrace.state).2 := by
  induction l generalizing s with
  | nil => simp [sweep]
  | cons n l ih =>
    obtain ⟨hchanged, hstate⟩ := visit_state hforward s n
    obtain ⟨hchangeds, hstates⟩ := ih (forwardVisit (.ofAnalysis a) g s n)
    rw [hstate] at hchangeds hstates
    rw [List.foldl_cons, hchangeds, hstates, hchanged, Bool.or_assoc]
    exact ⟨rfl, rfl⟩

theorem sweeps_state [DecidableEq N] {s : Loop N F} (hs : s.changed = true) (fuel : ℕ) :
    sweeps a g fuel s.toTrace.state =
      (iterate (forwardTurn (.ofAnalysis a) g) (fuel + 1) s).map (·.toTrace.state) := by
  induction fuel generalizing s with
  | zero => simp [sweeps, iterate, forwardTurn, hs]
  | succ fuel ih =>
    obtain ⟨hchanged, hstate⟩ :=
      sweep_state (g := g) hforward (a.order g) { s with changed := false }
    have hstep : forwardTurn (.ofAnalysis a) g s = some ((a.order g).foldl
        (forwardVisit (.ofAnalysis a) g) { s with changed := false }) := by
      rw [forwardTurn, if_pos hs, Analysis.order_eq hforward]
    rw [iterate, hstep]
    generalize (a.order g).foldl (forwardVisit (.ofAnalysis a) g) { s with changed := false } = t
      at hchanged hstate
    rw [Bool.false_or] at hchanged
    unfold sweeps
    split
    · rename_i u hu
      rw [hu] at hchanged hstate
      subst hstate
      exact ih hchanged
    · rename_i u hu
      rw [hu] at hchanged hstate
      subst hstate
      simp [iterate, forwardTurn, hchanged]

theorem run_eq_of_forward [DecidableEq N] (fuel : ℕ) : run a g fuel =
    ((Client.ofAnalysis a).run g .sweep (fuel + 1)).map Trace.solution := by
  have hstart : Dataflow.State.start a g = (start (.ofAnalysis a) g).toTrace.state :=
    (Trace.state_start hforward).symm
  have hclient : (Client.ofAnalysis a).forward = true := by simp [Client.ofAnalysis, hforward]
  rw [run, hstart, sweeps_state hforward rfl]
  simp only [Client.run, hclient, Option.map_map, hforward]
  congr 1
  funext s
  simp [Trace.solution, Trace.state, Dataflow.State.solution]

end Sweep

/-! ## Both directions -/

variable [DecidableEq N] [LawfulEqOrd N]

theorem Client.solution_mirror (h : a.direction ≠ .forward) (kind : SolverKind) (fuel : ℕ) :
    ((ofAnalysis a.mirror).run g.reverse kind fuel).map Trace.solution =
      (((ofAnalysis a).run g kind fuel).map Trace.solution).map Solution.mirror := by
  have hbackward : (ofAnalysis a).forward = false := by simp [ofAnalysis, h]
  rw [ofAnalysis_mirror, run_mirror_of_backward hbackward, Option.map_map, Option.map_map]
  rfl

/-- The work list runs as its two loops do. -/
theorem WorkList.run_eq (a : Analysis N F) (g : FlowGraph N) (fuel : ℕ) :
    run a g fuel = ((Client.ofAnalysis a).run g .workList fuel).map Trace.solution := by
  by_cases h : a.direction = .forward
  · exact run_eq_of_forward h fuel
  · have himage := run_eq_of_forward (g := g.reverse) (Analysis.direction_mirror h) fuel
    rw [run_mirror, Client.solution_mirror h] at himage
    exact Option.map_injective Solution.mirror_injective himage

/-- Sweeps run as their two loops do, which need a turn more to see that nothing has changed. -/
theorem Sweep.run_eq (a : Analysis N F) (g : FlowGraph N) (fuel : ℕ) :
    run a g fuel = ((Client.ofAnalysis a).run g .sweep (fuel + 1)).map Trace.solution := by
  by_cases h : a.direction = .forward
  · exact run_eq_of_forward h fuel
  · have himage := run_eq_of_forward (g := g.reverse) (Analysis.direction_mirror h) fuel
    rw [run_mirror, Client.solution_mirror h] at himage
    exact Option.map_injective Solution.mirror_injective himage

end ObjectFlow.Dataflow
