import Mathlib.Logic.Function.Basic
import ObjectFlow.DeadCode
import ObjectFlow.Proofs.Liveness

/-!
# Removal of dead assignments

An `Interpretation` says what the statements of a body do: a statement reads the variables that it
uses and the observations made so far, makes observations, assigns and chooses a way out. Whatever
it is, a body observes the same on the same path when all its dead assignments are replaced by `nop`
at once (`trace_withoutDead`). The stores of the two runs agree on the variables that are live
before the next node (`Agrees`), and every statement keeps this: `Agrees.dead` for those that are
removed, `Agrees.kept` for the others.
-/

namespace ObjectFlow.DeadCode

open Std (ExtTreeMap)
open Dataflow

/-! ## Interpretations -/

/-- What a statement does: what is observed, the value that it assigns if it assigns a variable, and
the number of the edge that it takes. -/
structure Effect (V O : Type*) where
  observed : List O
  value : V
  way : ℕ

/-- What statements do with values `V` and observations `O`. -/
structure Interpretation (V O : Type*) where
  /-- The value of a side-effect-free assignment, given those of the variables that it reads. -/
  value : Stmt → List V → V
  /-- What any other statement does, given the values of the variables that it reads and all
  observations before it. -/
  effect : Stmt → List V → List O → Effect V O

/-- Whether an instruction assigns a value and does nothing else, or is a `nop`, which does nothing
at all. -/
def isQuiet : Instr → Bool
  | .assign _ rhs => rhs.isPure
  | .nop => true
  | _ => false

/-- A store after an assignment, if there is one. -/
def define {V : Type*} (S : VarId → V) (x : V) : Option VarId → VarId → V
  | some v => Function.update S v x
  | none => S

/-- Where a run stands: at a node with a store, after some observations. -/
structure Standing (V O : Type*) where
  node : Cfg.Node
  store : VarId → V
  seen : List O

/-- What a node makes of a run: what is observed there, the store after it, and the number of the
edge that leads on. -/
structure Outcome (V O : Type*) where
  observed : List O
  store : VarId → V
  way : ℕ

namespace Interpretation

variable {V O : Type*} (sem : Interpretation V O)

/-- What a statement does in a store. -/
def act (s : Stmt) (S : VarId → V) (seen : List O) : Effect V O :=
  if isQuiet s.instr then ⟨[], sem.value s (s.instr.uses.map S), 0⟩
  else sem.effect s (s.instr.uses.map S) seen

/-- What a node does: what its statement does, or nothing at the entry and at the exit. -/
def visit (b : Body) (p : Standing V O) : Outcome V O :=
  match b.at? p.node with
  | some s =>
    let e := sem.act s p.store p.seen
    ⟨e.observed, define p.store e.value s.instr.def?, e.way⟩
  | none => ⟨[], p.store, 0⟩

/-- The first `k` nodes of a run, with what is observed at each. A run stops where it has no way
out. -/
def trace (b : Body) : ℕ → Standing V O → List (Cfg.Node × List O)
  | 0, _ => []
  | k + 1, p =>
    let o := sem.visit b p
    (p.node, o.observed) :: match ((Cfg.ofBody b).outEdges p.node)[o.way]? with
      | some e => trace b k ⟨e.target, o.store, p.seen ++ o.observed⟩
      | none => []

theorem act_of_isQuiet {s : Stmt} {S : VarId → V} {seen : List O} (h : isQuiet s.instr) :
    sem.act s S seen = ⟨[], sem.value s (s.instr.uses.map S), 0⟩ := if_pos h

end Interpretation

/-! ## The body without dead assignments -/

/-- A statement or, if it is an assignment that is dead, a `nop` in its place. -/
def clean (live : Option (SetFact VarId)) (s : Stmt) : Stmt :=
  if isDeadAssignment live s.instr then { s with instr := .nop } else s

/-- The body with a `nop` in the place of every dead assignment. -/
def withoutDead (live : ExtTreeMap Cfg.Node (SetFact VarId)) (b : Body) : Body :=
  { b with stmts := b.stmts.mapIdx fun i s => clean live[Cfg.Node.stmt i]? s }

variable {live : Option (SetFact VarId)} {facts : ExtTreeMap Cfg.Node (SetFact VarId)} {b : Body}
  {s : Stmt} {n : Cfg.Node}

/-- A dead assignment assigns a variable that is not live, and is quiet. -/
theorem isDeadAssignment_iff {i : Instr} : isDeadAssignment live i = true ↔
    ∃ v rhs, i = .assign v rhs ∧ (∀ l, live = some l → v ∉ l) ∧ rhs.isPure = true := by
  cases i with
  | assign v rhs =>
    cases live with
    | none => simp [isDeadAssignment]
    | some l => simp [isDeadAssignment, ← Std.ExtTreeSet.contains_iff_mem]
  | _ => simp [isDeadAssignment]

theorem clean_of_dead (h : isDeadAssignment live s.instr) :
    clean live s = { s with instr := .nop } := if_pos h

theorem clean_of_not (h : ¬ isDeadAssignment live s.instr) : clean live s = s := if_neg h

@[simp] theorem index_clean : (clean live s).index = s.index := by
  unfold clean
  split <;> rfl

/-- An assignment has the same ways out as a `nop`. -/
@[simp] theorem exits_clean {length : ℕ} :
    Cfg.exits length (clean live s) = Cfg.exits length s := by
  by_cases h : isDeadAssignment live s.instr
  · obtain ⟨v, rhs, hs, -⟩ := isDeadAssignment_iff.1 h
    simp [clean_of_dead h, Cfg.exits, hs]
  · rw [clean_of_not h]

theorem at?_withoutDead : (withoutDead facts b).at? n = (b.at? n).map (clean facts[n]?) := by
  cases n with
  | entry => rfl
  | exit => rfl
  | stmt i => exact List.getElem?_mapIdx

theorem length_withoutDead : (withoutDead facts b).stmts.length = b.stmts.length :=
  List.length_mapIdx

/-- A function that cleaning does not change finds the same in both bodies. -/
theorem map_withoutDead {α : Type*} {f : Stmt → α} (h : ∀ live s, f (clean live s) = f s) :
    (withoutDead facts b).stmts.map f = b.stmts.map f := by
  refine List.ext_getElem? fun i => ?_
  simp only [withoutDead, List.getElem?_map, List.getElem?_mapIdx, Option.map_map,
    Function.comp_def, h]

theorem nodes_withoutDead (facts : ExtTreeMap Cfg.Node (SetFact VarId)) (b : Body) :
    (Cfg.ofBody (withoutDead facts b)).nodes = (Cfg.ofBody b).nodes := by
  simp only [Cfg.ofBody]
  rw [map_withoutDead (f := fun s => Cfg.Node.stmt s.index) fun _ _ => by rw [index_clean]]

theorem edges_withoutDead : (Cfg.ofBody (withoutDead facts b)).edges = (Cfg.ofBody b).edges := by
  have hnodes := nodes_withoutDead facts b
  simp only [Cfg.ofBody, List.flatMap_def, length_withoutDead] at hnodes ⊢
  rw [hnodes, map_withoutDead fun _ _ => by rw [index_clean, exits_clean]]

theorem outEdges_withoutDead :
    (Cfg.ofBody (withoutDead facts b)).outEdges n = (Cfg.ofBody b).outEdges n := by
  rw [Cfg.outEdges, edges_withoutDead, Cfg.outEdges]

/-! ## Agreement of stores -/

section
variable {V O : Type*} {sem : Interpretation V O} {S T : VarId → V} {l m : SetFact VarId}
  {seen : List O}

/-- Two stores agree on the variables of a set. -/
def Agrees (l : SetFact VarId) (S T : VarId → V) : Prop := ∀ v ∈ l, S v = T v

theorem Agrees.mono (h : Agrees l S T) (hm : m ≤ l) : Agrees m S T := fun v hv => h v (hm v hv)

/-- The same value may be assigned on both sides. -/
theorem Agrees.define {d : Option VarId} {x : V} (h : ∀ v ∈ l, v ∉ d → S v = T v) :
    Agrees l (define S x d) (define T x d) := by
  intro v hv
  cases d with
  | none => exact h v hv (by simp)
  | some w =>
    by_cases hvw : v = w
    · simp [DeadCode.define, hvw]
    · simp only [DeadCode.define, Function.update_of_ne hvw]
      exact h v hv (by simpa using Ne.symm hvw)

/-- A statement does the same in stores that agree on what it reads, and leaves stores that agree on
what is live after it. -/
theorem Agrees.kept (hs : b.at? n = some s) (h : Agrees ((Liveness.analysis b).transfer n l) S T)
    (sem : Interpretation V O) (seen : List O) :
    sem.act s S seen = sem.act s T seen ∧ ∀ x,
      Agrees l (DeadCode.define S x s.instr.def?) (DeadCode.define T x s.instr.def?) := by
  have huses : s.instr.uses.map S = s.instr.uses.map T :=
    List.map_congr_left fun v hv => h v ((Liveness.mem_transfer hs).2 (.inr hv))
  constructor
  · rw [Interpretation.act, huses, Interpretation.act]
  · intro x
    exact Agrees.define fun v hv hd => h v ((Liveness.mem_transfer hs).2 (.inl ⟨hv, hd⟩))

/-- A dead assignment leaves alone what is live after it. -/
theorem Agrees.dead (hs : b.at? n = some s) (hdead : isDeadAssignment (some l) s.instr)
    (h : Agrees ((Liveness.analysis b).transfer n l) S T) (x : V) :
    Agrees l (DeadCode.define S x s.instr.def?) T := by
  obtain ⟨v, rhs, hi, hv, -⟩ := isDeadAssignment_iff.1 hdead
  intro w hw
  have hne : w ≠ v := fun he => hv l rfl (he ▸ hw)
  rw [hi, Instr.def?, DeadCode.define, Function.update_of_ne hne]
  refine h w ((Liveness.mem_transfer hs).2 (.inl ⟨hw, ?_⟩))
  simpa [hi, Instr.def?] using Ne.symm hne

/-- A visit of the same node with and without dead assignments: the same is observed, the same way
is taken, and the stores agree on what is live after the node. -/
theorem Agrees.visit (hl : facts[n]? = some l)
    (h : Agrees ((Liveness.analysis b).transfer n l) S T) (sem : Interpretation V O)
    (seen : List O) :
    let p := sem.visit b ⟨n, S, seen⟩
    let q := sem.visit (withoutDead facts b) ⟨n, T, seen⟩
    q.observed = p.observed ∧ q.way = p.way ∧ Agrees l p.store q.store := by
  cases hs : b.at? n with
  | none =>
    rw [Liveness.transfer_of_none hs] at h
    simp [Interpretation.visit, at?_withoutDead, hs, h]
  | some s =>
    simp only [Interpretation.visit, at?_withoutDead, hs, Option.map_some, hl]
    by_cases hdead : isDeadAssignment (some l) s.instr
    · obtain ⟨v, rhs, hi, -, hpure⟩ := isDeadAssignment_iff.1 hdead
      have hquiet : isQuiet s.instr = true := by rw [hi, isQuiet, hpure]
      rw [clean_of_dead hdead, sem.act_of_isQuiet hquiet, sem.act_of_isQuiet rfl]
      exact ⟨rfl, rfl, h.dead hs hdead _⟩
    · obtain ⟨hact, hdef⟩ := h.kept hs sem seen
      rw [clean_of_not hdead, hact]
      exact ⟨rfl, rfl, hdef _⟩

/-! ## Runs -/

/-- Where liveness is settled, the runs with and without dead assignments go the same way from
stores that agree on what is live. -/
theorem trace_eq_of_agrees {st : Dataflow.State Cfg.Node (SetFact VarId)} {y : SetFact VarId}
    (hf : st.Fits (Liveness.analysis b) (Cfg.ofBody b).flow)
    (hs : ∀ n ∈ (Cfg.ofBody b).nodes, st.Settled (Liveness.analysis b) (Cfg.ofBody b).flow n)
    (hn : n ∈ (Cfg.ofBody b).nodes) (hy : st.outputs[n]? = some y) (h : Agrees y S T) (k : ℕ) :
    sem.trace (withoutDead st.inputs b) k ⟨n, T, seen⟩ = sem.trace b k ⟨n, S, seen⟩ := by
  induction k generalizing n y S T seen with
  | zero => rfl
  | succ k ih =>
    obtain ⟨l, hl, hout, hle⟩ := hs n hn
    cases hy.symm.trans hout
    obtain ⟨hobs, hway, hag⟩ := h.visit hl sem seen
    simp only [Interpretation.trace, outEdges_withoutDead, hobs, hway]
    cases he : ((Cfg.ofBody b).outEdges n)[(sem.visit b ⟨n, S, seen⟩).way]? with
    | none => rfl
    | some e =>
      have hmem := List.mem_of_getElem? he
      have htarget : e.target ∈ (Cfg.ofBody b).nodes :=
        (Cfg.edge_cases (List.mem_of_mem_filter hmem)).1
      obtain ⟨z, hz⟩ := (hf.outputs e.target).2 htarget
      exact congrArg _ (ih htarget hz (hag.mono (hle e.target (List.mem_map_of_mem hmem) z hz)))

/-- A body observes the same on the same path without its dead assignments, whatever its statements
do, whichever solver finds the live variables, from every store and for as long as one likes. -/
theorem trace_withoutDead (kind : SolverKind) (b : Body) :
    ∃ live, solve kind (Liveness.analysis b) (Cfg.ofBody b).flow = some live ∧
      ∀ {V O : Type*} (sem : Interpretation V O) (S : VarId → V) (k : ℕ),
        sem.trace (withoutDead live.outFacts b) k ⟨.entry, S, []⟩ =
          sem.trace b k ⟨.entry, S, []⟩ := by
  obtain ⟨live, hl⟩ := Liveness.exists_solve kind b
  refine ⟨live, hl, fun sem S k => ?_⟩
  obtain ⟨st, rfl, hf, hs⟩ := Liveness.exists_settled (ends_of_solve hl)
  obtain ⟨y, hy⟩ := (hf.outputs .entry).2 List.mem_cons_self
  exact trace_eq_of_agrees hf hs List.mem_cons_self hy (fun _ _ => rfl) k

end

/-- Of two assignments in a row the first is removed. -/
example :
    let b : Body := { stmts := [
      ⟨0, .assign ⟨0⟩ (.literal (.int 1))⟩,
      ⟨1, .assign ⟨0⟩ (.literal (.int 2))⟩,
      ⟨2, .ret (some ⟨0⟩)⟩] }
    (solve .workList (Liveness.analysis b) (Cfg.ofBody b).flow).map
      (fun live => (withoutDead live.outFacts b).stmts) =
    some [⟨0, .nop⟩, ⟨1, .assign ⟨0⟩ (.literal (.int 2))⟩, ⟨2, .ret (some ⟨0⟩)⟩] := by
  decide +kernel

end ObjectFlow.DeadCode
