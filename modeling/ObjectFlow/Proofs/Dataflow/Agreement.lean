import ObjectFlow.Liveness
import ObjectFlow.Dataflow.Solve
import ObjectFlow.Proofs.Dataflow.Ending
import ObjectFlow.Proofs.Dataflow.GenKill
import ObjectFlow.Proofs.Program.Edges

/-!
# Both solvers find the least solution

`solvers_find_least`: for an analysis whose facts are a join semilattice without infinite ascent,
with monotone transfer functions, the work list and the sweeps end with the same facts, which are
the least solution of the equations. Gen/kill analyses by union are such analyses on every graph
where no edge leads to the start (`GenKill.framework`). So is liveness on the control-flow graph of
a body, for which both solvers end within the budgets that `solve` gives them.
-/

namespace ObjectFlow.Dataflow

open Std (ExtTreeMap TransOrd LawfulEqOrd)

variable {N F : Type} [Ord N] [TransOrd N]

/-! ## Solutions -/

/-- What a solution says of inputs: the facts before nodes or, backward, the facts after them. -/
def Solution.inputs (r : Solution N F) : Direction → ExtTreeMap N F
  | .forward => r.inFacts
  | .backward => r.outFacts

def Solution.outputs (r : Solution N F) : Direction → ExtTreeMap N F
  | .forward => r.outFacts
  | .backward => r.inFacts

omit [TransOrd N] in
@[simp] theorem State.inputs_solution {s : State N F} {d : Direction} :
    (s.solution d).inputs d = s.inputs := by
  cases d <;> rfl

omit [TransOrd N] in
@[simp] theorem State.outputs_solution {s : State N F} {d : Direction} :
    (s.solution d).outputs d = s.outputs := by
  cases d <;> rfl

/-- A solution holds these inputs and outputs at all nodes. -/
def Solution.Holds (r : Solution N F) (a : Analysis N F) (g : FlowGraph N) (inp out : N → F) :
    Prop :=
  ∀ n ∈ g.nodes, (r.inputs a.direction)[n]? = some (inp n) ∧
    (r.outputs a.direction)[n]? = some (out n)

theorem State.Fits.holds [Preorder F] {a : Analysis N F} {g : FlowGraph N} {s : State N F}
    (h : s.Fits a g) : (s.solution a.direction).Holds a g (s.input a) (s.output a) := by
  intro n hn
  rw [inputs_solution, outputs_solution]
  exact ⟨h.inputs_eq hn, h.outputs_eq hn⟩

theorem Solution.Holds.congr {r : Solution N F} {a : Analysis N F} {g : FlowGraph N}
    {inp inp' out out' : N → F} (h : r.Holds a g inp out)
    (heq : ∀ n ∈ g.nodes, inp n = inp' n ∧ out n = out' n) : r.Holds a g inp' out' := by
  intro n hn
  rw [← (heq n hn).1, ← (heq n hn).2]
  exact h n hn

omit [Ord N] [TransOrd N] in
/-- There is one least solution. -/
theorem Least.unique [PartialOrder F] {a : Analysis N F} {g : FlowGraph N}
    {inp inp' out out' : N → F} (h : Least a g inp out) (h' : Least a g inp' out') :
    ∀ n ∈ g.nodes, inp n = inp' n ∧ out n = out' n := by
  intro n hn
  obtain ⟨hi, ho⟩ := h.least inp' out' h'.solves n hn
  obtain ⟨hi', ho'⟩ := h'.least inp out h.solves n hn
  exact ⟨le_antisymm hi hi', le_antisymm ho ho'⟩

/-! ## The solvers -/

/-- A monotone framework: facts are a join semilattice, transfer functions are monotone, and no facts
that can arise ascend for ever. -/
structure Analysis.Framework [SemilatticeSup F] (a : Analysis N F) (g : FlowGraph N) : Prop where
  rooted : a.Rooted g
  meet : ∀ x y, a.meet x y = x ⊔ y
  mono : ∀ n ∈ g.nodes, Monotone (a.transfer n)
  chains : ¬ ∃ u : ℕ → F, StrictMono u ∧ ∀ i, a.Arises g (u i)

omit [Ord N] [TransOrd N] in
theorem Analysis.wellFounded_of_chains [Preorder F] {a : Analysis N F} {g : FlowGraph N}
    (h : ¬ ∃ u : ℕ → F, StrictMono u ∧ ∀ i, a.Arises g (u i)) :
    WellFoundedGT {x // a.Arises g x} := by
  refine ⟨wellFounded_iff_isEmpty_descending_chain.2 ⟨fun ⟨u, hu⟩ => h ?_⟩⟩
  exact ⟨fun i => (u i).1, strictMono_nat_of_lt_succ fun i => hu i, fun i => (u i).2⟩

section
variable [SemilatticeSup F] {a : Analysis N F} {g : FlowGraph N}

omit [Ord N] [TransOrd N] in
theorem Analysis.Framework.joins (h : a.Framework g) : a.Joins where
  left x y := le_sup_left.trans_eq (h.meet x y).symm
  right x y := le_sup_right.trans_eq (h.meet x y).symm
  least hx hy := (h.meet _ _).trans_le (sup_le hx hy)

omit [Ord N] [TransOrd N] in
theorem Analysis.Framework.wellFounded (h : a.Framework g) : WellFoundedGT {x // a.Arises g x} :=
  Analysis.wellFounded_of_chains h.chains

end

omit [Ord N] [TransOrd N] in
/-- Facts that rise at most as often as the capacity says do not ascend for ever. -/
theorem Ranked.chains [PartialOrder F] {a : Analysis N F} {g : FlowGraph N} {ρ : F → ℕ}
    (h : Ranked a g ρ) : ¬ ∃ u : ℕ → F, StrictMono u ∧ ∀ i, a.Arises g (u i) := by
  rintro ⟨u, hu, ha⟩
  have hmono : StrictMono fun i => ρ (u i) :=
    fun i j hij => h.lt _ _ (ha i) (ha j) (hu hij)
  have hid := hmono.id_le (a.capacity + 1)
  have hcap := h.le _ (ha (a.capacity + 1))
  dsimp only [id] at hid
  omega

section
variable [LawfulEqOrd N] [DecidableEq N] [DecidableEq F] [PartialOrder F] {a : Analysis N F}
  {g : FlowGraph N}

section
variable (hr : a.Unentered g) (hj : a.Joins) (hm : ∀ n ∈ g.nodes, Monotone (a.transfer n))
include hr hj hm

/-- A solver that ends has found the least solution. -/
theorem Ends.exists_least {kind : SolverKind} {r : Solution N F} (h : Ends kind a g r) :
    ∃ s : State N F, r = s.solution a.direction ∧ s.Fits a g ∧
      Least a g (s.input a) (s.output a) := by
  cases kind with
  | workList =>
    obtain ⟨fuel, h⟩ := h
    obtain ⟨s, hs, rfl⟩ := Option.map_eq_some_iff.1 h
    exact ⟨_, rfl, WorkList.least_of_end hj hr hm hs⟩
  | sweep =>
    obtain ⟨fuel, h⟩ := h
    obtain ⟨s, hs, rfl⟩ := Option.map_eq_some_iff.1 h
    exact ⟨_, rfl, Sweep.least_of_end hj hm hs⟩

theorem Ends.least {kind : SolverKind} {r : Solution N F} (h : Ends kind a g r) :
    ∃ inp out, Least a g inp out ∧ r.Holds a g inp out := by
  obtain ⟨s, rfl, hf, hl⟩ := h.exists_least hr hj hm
  exact ⟨_, _, hl, hf.holds⟩

/-- As there is one least solution, it does not matter which solver found it. -/
theorem Ends.holds {kind : SolverKind} {r : Solution N F} (h : Ends kind a g r) {inp out : N → F}
    (hl : Least a g inp out) : r.Holds a g inp out := by
  obtain ⟨inp', out', hl', hr⟩ := h.least hr hj hm
  exact hr.congr (hl'.unique hl)

/-- Nor do the facts before and after the nodes depend on the solver. -/
theorem Ends.facts_eq {kind kind' : SolverKind} {r r' : Solution N F} (h : Ends kind a g r)
    (h' : Ends kind' a g r') : r.inFacts = r'.inFacts ∧ r.outFacts = r'.outFacts := by
  obtain ⟨s, rfl, hf, hl⟩ := h.exists_least hr hj hm
  obtain ⟨t, rfl, hf', hl'⟩ := h'.exists_least hr hj hm
  have heq := hl.unique hl'
  have hin : s.inputs = t.inputs := ext_of_domain hf.inputs hf'.inputs fun n hn => by
    rw [hf.inputs_eq hn, hf'.inputs_eq hn, (heq n hn).1]
  have hout : s.outputs = t.outputs := ext_of_domain hf.outputs hf'.outputs fun n hn => by
    rw [hf.outputs_eq hn, hf'.outputs_eq hn, (heq n hn).2]
  cases a.direction with
  | forward => exact ⟨hin, hout⟩
  | backward => exact ⟨hout, hin⟩

end

/-- Where the capacity bounds how often facts rise, the budgets suffice. -/
theorem exists_solve (hr : a.Rooted g) (hj : a.Joins)
    (hm : ∀ n ∈ g.nodes, Monotone (a.transfer n)) {ρ : F → ℕ} (hρ : Ranked a g ρ)
    (kind : SolverKind) : ∃ r, solve kind a g = some r := by
  cases kind with
  | workList =>
    obtain ⟨s, hs⟩ := WorkList.exists_end_of_ranked hj hr hρ
    exact ⟨_, congrArg (Option.map _) hs⟩
  | sweep =>
    obtain ⟨s, hs⟩ := Sweep.exists_end_of_ranked hj hm hρ
    exact ⟨_, congrArg (Option.map _) hs⟩

end

/-- A gen/kill analysis that merges by union is a framework, whatever its direction and the facts
from which it starts. -/
theorem GenKill.framework {N E : Type} [Ord E] [TransOrd E] [LawfulEqOrd E] {k : GenKill N E}
    {g : FlowGraph N} (hk : k.merge = .union) (hr : (k.analysis g.nodes).Rooted g) :
    (k.analysis g.nodes).Framework g where
  rooted := hr
  meet _ _ := GenKill.meet_eq_sup hk
  mono _ _ := GenKill.monotone_transfer
  chains := (GenKill.ranked hk).chains

theorem ranked_liveness (b : Body) :
    Ranked (Liveness.analysis b) (Cfg.ofBody b).flow Std.ExtTreeSet.size :=
  GenKill.ranked (k := Liveness.genKill b) (g := (Cfg.ofBody b).flow) rfl

theorem framework_liveness (b : Body) :
    (Liveness.analysis b).Framework (Cfg.ofBody b).flow :=
  GenKill.framework (k := Liveness.genKill b) rfl (Cfg.rooted _)

/-- Both solvers end with the least solution, whatever the facts, the graph and the direction are;
liveness is such an analysis, for which they end within the budgets of `solve`. -/
theorem solvers_find_least :
    (∀ {N F : Type} [Ord N] [TransOrd N] [LawfulEqOrd N] [DecidableEq N] [SemilatticeSup F]
        [DecidableEq F] (a : Analysis N F) (g : FlowGraph N), a.Framework g →
      ∃ inp out, Least a g inp out ∧ ∃ k, ∀ fuel ≥ k,
        (∃ r, WorkList.run a g fuel = some r ∧ r.Holds a g inp out) ∧
          ∃ r, Sweep.run a g fuel = some r ∧ r.Holds a g inp out) ∧
    ∀ b : Body, (Liveness.analysis b).Framework (Cfg.ofBody b).flow ∧
      ∃ inp out, Least (Liveness.analysis b) (Cfg.ofBody b).flow inp out ∧
        ∀ kind, ∃ r, solve kind (Liveness.analysis b) (Cfg.ofBody b).flow = some r ∧
          r.Holds (Liveness.analysis b) (Cfg.ofBody b).flow inp out := by
  constructor
  · intro N F _ _ _ _ _ _ a g h
    have := h.wellFounded
    obtain ⟨m, s, hs⟩ := WorkList.exists_end h.joins h.rooted.unentered
    obtain ⟨k, t, ht⟩ := Sweep.exists_end h.joins h.mono
    have hw : ∀ fuel ≥ m, WorkList.run a g fuel = some (s.toState.solution a.direction) :=
      fun fuel hf => congrArg (Option.map _) (iterate_mono hf hs)
    have hsw : ∀ fuel ≥ k, Sweep.run a g fuel = some (t.solution a.direction) :=
      fun fuel hf => congrArg (Option.map _) (Sweep.sweeps_mono hf ht)
    have hendw : Ends .workList a g _ := ⟨m, hw m le_rfl⟩
    have hends : Ends .sweep a g _ := ⟨k, hsw k le_rfl⟩
    obtain ⟨inp, out, hl, hhold⟩ := hendw.least h.rooted h.joins h.mono
    refine ⟨inp, out, hl, max m k, fun fuel hfuel => ⟨⟨_, hw fuel ?_, hhold⟩, ⟨_, hsw fuel ?_, ?_⟩⟩⟩
    · exact (le_max_left m k).trans hfuel
    · exact (le_max_right m k).trans hfuel
    · exact hends.holds h.rooted h.joins h.mono hl
  · intro b
    have h := framework_liveness b
    have hsolve := exists_solve h.rooted h.joins h.mono (ranked_liveness b)
    obtain ⟨r, hr⟩ := hsolve .workList
    obtain ⟨inp, out, hl, -⟩ := (ends_of_solve hr).least h.rooted h.joins h.mono
    refine ⟨h, inp, out, hl, fun kind => ?_⟩
    obtain ⟨r', hr'⟩ := hsolve kind
    exact ⟨r', hr', (ends_of_solve hr').holds h.rooted h.joins h.mono hl⟩

/-- A path that leads to a loop. -/
def loopAhead : FlowGraph ℕ := .ofEdges 0 3 [0, 1, 2, 3] [(0, 1), (1, 2), (2, 1), (2, 3)]

/-- A forward analysis where one mark holds at the entry and another is there from the start at all
other nodes. The loop adds a mark and takes the first one away. -/
def tides : GenKill ℕ ℕ where
  direction := .forward
  merge := .union
  boundary := .ofList [1]
  initial := .ofList [9]
  gen n := if n = 1 then .ofList [5] else ∅
  kill n := if n = 2 then .ofList [1] else ∅

/-- Facts need not start empty: in this forward analysis both solvers add to the initial facts what
comes from the entry and from the loop. -/
theorem solvers_find_least_forward :
    (tides.analysis loopAhead.nodes).Framework loopAhead ∧
    ∃ inp out, Least (tides.analysis loopAhead.nodes) loopAhead inp out ∧
      (∃ k, ∀ fuel ≥ k,
        (∃ r, WorkList.run (tides.analysis loopAhead.nodes) loopAhead fuel = some r ∧
          r.Holds (tides.analysis loopAhead.nodes) loopAhead inp out) ∧
        ∃ r, Sweep.run (tides.analysis loopAhead.nodes) loopAhead fuel = some r ∧
          r.Holds (tides.analysis loopAhead.nodes) loopAhead inp out) ∧
      inp 1 = .ofList [1, 5, 9] ∧ out 2 = .ofList [5, 9] := by
  have hf : (tides.analysis loopAhead.nodes).Framework loopAhead :=
    GenKill.framework rfl ⟨fun m n => FlowGraph.turned_ofEdges, rfl⟩
  obtain ⟨inp, out, hl, hruns⟩ := solvers_find_least.1 _ _ hf
  obtain ⟨r, hr⟩ := exists_solve hf.rooted hf.joins hf.mono (GenKill.ranked rfl) .sweep
  have hhold := (ends_of_solve hr).holds hf.rooted hf.joins hf.mono hl
  obtain ⟨hin, hout⟩ := (by decide +kernel :
    ∀ r ∈ solve .sweep (tides.analysis loopAhead.nodes) loopAhead,
      r.inFacts[1]? = some (.ofList [1, 5, 9]) ∧ r.outFacts[2]? = some (.ofList [5, 9])) r hr
  refine ⟨hf, inp, out, hl, hruns, ?_, ?_⟩
  · exact Option.some.inj ((hhold 1 (by decide)).1.symm.trans hin)
  · exact Option.some.inj ((hhold 2 (by decide)).2.symm.trans hout)

end ObjectFlow.Dataflow
