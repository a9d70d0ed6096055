import ObjectFlow.Dataflow.Loops
import ObjectFlow.Proofs.Dataflow.Equations

/-!
# Loops in a mirror

The mirror image of a client goes the other way (`Client.mirror`), that of a graph has its edges
turned round (`FlowGraph.reverse`), and that of a trace has the facts before and after the nodes
exchanged (`Trace.mirror`). A turn of the backward loop is a turn of the forward loop in the mirror
(`WorkList.forwardTurn_mirror`, `Sweep.forwardTurn_mirror`), so both loops call the transfer
function alike for ever, and end alike if they do (`mirror_runs`).
-/

namespace ObjectFlow.Dataflow

open Std (ExtTreeMap TransOrd LawfulEqOrd)

variable {N F : Type}

/-! ## Mirror images -/

@[simp] theorem FlowGraph.reverse_reverse (g : FlowGraph N) : g.reverse.reverse = g := by
  obtain ⟨entry, exit, nodes, preds, succs⟩ := g
  simp [reverse]

/-- The client that goes the other way, with the boundary fact that it has on the graph whose edges
are turned back. -/
def Client.mirror (c : Client N F) : Client N F :=
  { c with forward := !c.forward, boundary := fun g => c.boundary g.reverse }

@[simp] theorem Client.mirror_mirror (c : Client N F) : c.mirror.mirror = c := by
  simp [mirror]

section
variable [Ord N]

/-- The facts before the nodes in the place of those after them, with the same calls. -/
def Trace.mirror (t : Trace N F) : Trace N F :=
  { t with forward := !t.forward, before := t.after, after := t.before }

@[simp] theorem Trace.mirror_mirror (t : Trace N F) : t.mirror.mirror = t := by
  simp [mirror]

def WorkList.Loop.mirror (s : Loop N F) : Loop N F :=
  { s with toTrace := s.toTrace.mirror }

def Sweep.Loop.mirror (s : Loop N F) : Loop N F :=
  { s with toTrace := s.toTrace.mirror }

end

variable {c : Client N F} {g : FlowGraph N} {n : N}

/-! ## The start -/

/-- The fact that a node starts with. -/
def Client.first [DecidableEq N] (c : Client N F) (g : FlowGraph N) (n : N) : F :=
  if n = (if c.forward then g.entry else g.exit) then c.boundary g else c.initial

theorem Client.first_mirror [DecidableEq N] : c.mirror.first g.reverse = c.first g := by
  funext n
  unfold first
  cases hc : c.forward <;> simp [mirror, hc, FlowGraph.reverse]

variable [Ord N] [TransOrd N]

theorem Trace.start_eq [DecidableEq N] : Trace.start c g =
    ⟨c.forward, g.nodes.foldl (fun (m : ExtTreeMap N F) n => m.insert n (c.first g n)) ∅,
      g.nodes.foldl (fun (m : ExtTreeMap N F) n => m.insert n (c.first g n)) ∅, []⟩ :=
  List.foldl_hom (fun facts => (⟨c.forward, facts, facts, []⟩ : Trace N F)) fun _ _ => rfl

/-- The order in which facts are set does not matter. -/
theorem foldl_insert_reverse [DecidableEq N] [LawfulEqOrd N] (l : List N) (f : N → F) :
    l.reverse.foldl (fun (m : ExtTreeMap N F) n => m.insert n (f n)) ∅ =
      l.foldl (fun (m : ExtTreeMap N F) n => m.insert n (f n)) ∅ := by
  refine ExtTreeMap.ext_getElem? fun {n} => ?_
  rw [State.foldl_insert, State.foldl_insert]
  simp only [List.mem_reverse]

theorem Trace.start_mirror [DecidableEq N] [LawfulEqOrd N] :
    Trace.start c.mirror g.reverse = (Trace.start c g).mirror := by
  have hnodes : g.reverse.nodes = g.nodes.reverse := rfl
  rw [start_eq, start_eq, Client.first_mirror, hnodes, foldl_insert_reverse]
  rfl

/-! ## Turns of the work list -/

namespace WorkList

variable {s : Loop N F}

theorem Loop.mirror_call (s : Loop N F) (n : N) : s.mirror.call n = (s.call n).mirror := by
  unfold call
  have hqueued : n ∈ s.mirror.queued ↔ n ∈ s.queued := Iff.rfl
  simp only [hqueued, apply_ite Loop.mirror]
  rfl

/-- A turn forward in the mirror is a turn backward. -/
theorem forwardTurn_mirror :
    forwardTurn c.mirror g.reverse s.mirror = (backwardTurn c g s).map Loop.mirror := by
  obtain ⟨⟨forward, before, after, calls⟩, queue, queued⟩ := s
  cases queue with
  | nil => rfl
  | cons n queue =>
    simp only [forwardTurn, backwardTurn, Loop.mirror, Trace.mirror]
    cases after[n]? with
    | none => rfl
    | some fact =>
      dsimp only
      cases before[n]? with
      | none => rfl
      | some output =>
        simp only [Option.map_some, apply_ite Loop.mirror,
          ← List.foldl_hom Loop.mirror Loop.mirror_call]
        rfl

theorem forwardStart_mirror [DecidableEq N] [LawfulEqOrd N] :
    forwardStart c.mirror g.reverse = (backwardStart c g).mirror := by
  simp only [forwardStart, Trace.start_mirror]
  rfl

end WorkList

/-! ## Turns of sweeps -/

namespace Sweep

variable {s : Loop N F}

theorem forwardVisit_mirror (s : Loop N F) (n : N) :
    forwardVisit c.mirror g.reverse s.mirror n = (backwardVisit c g s n).mirror := by
  obtain ⟨⟨forward, before, after, calls⟩, changed⟩ := s
  simp only [forwardVisit, backwardVisit, Loop.mirror, Trace.mirror]
  cases before[n]? <;> rfl

/-- A sweep forward in the mirror is a sweep backward. -/
theorem forwardTurn_mirror [DecidableEq N] :
    forwardTurn c.mirror g.reverse s.mirror = (backwardTurn c g s).map Loop.mirror := by
  unfold forwardTurn backwardTurn
  have hchanged : s.mirror.changed = s.changed := rfl
  rw [hchanged]
  split
  · rw [Option.map_some, ← List.foldl_hom Loop.mirror forwardVisit_mirror]
    rfl
  · rfl

theorem start_mirror [DecidableEq N] [LawfulEqOrd N] :
    start c.mirror g.reverse = (start c g).mirror := by
  simp only [start, Trace.start_mirror]
  rfl

end Sweep

/-! ## Runs -/

variable [DecidableEq N] [LawfulEqOrd N]

theorem Client.after_mirror_of_backward (h : c.forward = false) (kind : SolverKind) (turns : ℕ) :
    c.mirror.after g.reverse kind turns = (c.after g kind turns).mirror := by
  have hmirror : c.mirror.forward = true := by simp [mirror, h]
  unfold after
  rw [h, hmirror]
  cases kind with
  | workList =>
    dsimp only
    rw [WorkList.forwardStart_mirror, follow_conj fun s => WorkList.forwardTurn_mirror]
    rfl
  | sweep =>
    dsimp only
    rw [Sweep.start_mirror, follow_conj fun s => Sweep.forwardTurn_mirror]
    rfl

theorem Client.run_mirror_of_backward (h : c.forward = false) (kind : SolverKind) (fuel : ℕ) :
    c.mirror.run g.reverse kind fuel = (c.run g kind fuel).map Trace.mirror := by
  have hmirror : c.mirror.forward = true := by simp [mirror, h]
  unfold run
  rw [h, hmirror]
  cases kind with
  | workList =>
    dsimp only
    rw [WorkList.forwardStart_mirror, iterate_conj (p := fun _ => True) (fun _ _ _ _ => trivial)
      (fun s _ => WorkList.forwardTurn_mirror) trivial, Option.map_map, Option.map_map]
    rfl
  | sweep =>
    dsimp only
    rw [Sweep.start_mirror, iterate_conj (p := fun _ => True) (fun _ _ _ _ => trivial)
      (fun s _ => Sweep.forwardTurn_mirror) trivial, Option.map_map, Option.map_map]
    rfl

/-- In the mirror a solver calls the transfer function for the same nodes with the same facts, turn
by turn. It ends if it does outside, and then with the same facts, those before the nodes exchanged
for those after them. -/
theorem mirror_runs (c : Client N F) (g : FlowGraph N) (kind : SolverKind) :
    (∀ turns, c.mirror.after g.reverse kind turns = (c.after g kind turns).mirror) ∧
      ∀ fuel, c.mirror.run g.reverse kind fuel = (c.run g kind fuel).map Trace.mirror := by
  cases h : c.forward with
  | false =>
    exact ⟨Client.after_mirror_of_backward h kind, Client.run_mirror_of_backward h kind⟩
  | true =>
    -- the image goes backward, and its image is the client itself
    have hmirror : c.mirror.forward = false := by simp [Client.mirror, h]
    refine ⟨fun turns => ?_, fun fuel => ?_⟩
    · have himage := Client.after_mirror_of_backward (g := g.reverse) hmirror kind turns
      rw [Client.mirror_mirror, FlowGraph.reverse_reverse] at himage
      rw [himage, Trace.mirror_mirror]
    · have himage := Client.run_mirror_of_backward (g := g.reverse) hmirror kind fuel
      rw [Client.mirror_mirror, FlowGraph.reverse_reverse] at himage
      rw [himage, Option.map_map]
      simp [Function.comp_def]

/-- A backward client that adds facts up and makes something new of an output that is there. Only
for one node it tells so, and always. -/
def tally : Client ℕ ℕ where
  forward := false
  boundary g := g.nodes.length
  initial := 1
  meet x y := x + y
  transfer n input output := (decide (n = 1), input + 10 * output)

/-- A loop with two edges from one node to the other, a node that is listed twice, and an edge to a
node that is not listed. -/
def ring : FlowGraph ℕ where
  entry := 0
  exit := 3
  nodes := [0, 1, 2, 1, 3]
  preds n := if n = 1 then [0, 2] else if n = 2 then [1, 1] else if n = 3 then [2] else []
  succs n := if n = 0 then [1] else if n = 1 then [2, 2] else if n = 2 then [1, 3, 4] else []

/-- The work list ends in the mirror as it does outside. Sweeps go on for ever, alike on both sides.
-/
theorem mirror_runs_ring :
    (∀ fuel, tally.mirror.run ring.reverse .workList fuel =
      (tally.run ring .workList fuel).map Trace.mirror) ∧
    (tally.mirror.run ring.reverse .workList 6).map (·.calls.reverse) =
      some [⟨1, 3, 1⟩, ⟨2, 19, 1⟩, ⟨1, 61, 13⟩, ⟨0, 192, 1⟩, ⟨2, 215, 29⟩] ∧
    (∀ turns, tally.mirror.after ring.reverse .sweep turns =
      (tally.after ring .sweep turns).mirror) ∧
    (tally.after ring .sweep 1).calls.reverse =
      [⟨1, 3, 1⟩, ⟨2, 19, 1⟩, ⟨1, 59, 13⟩, ⟨0, 190, 1⟩] :=
  ⟨(mirror_runs tally ring .workList).2, by decide +kernel, (mirror_runs tally ring .sweep).1,
    by decide +kernel⟩

end ObjectFlow.Dataflow
