import Mathlib.Data.List.Nodup
import ObjectFlow.Proofs.PointsTo.Least

/-!
# Histories of the points-to solver

`History a entry l s`: the moves `l` have led the analysis of `entry` to the state `s`. The methods
that have had their turn and those that are pending are together the reachable ones, in the order of
their discovery (`History.turns_append_pending`). Histories are shorter than the budget, so the
analysis ends, and by then every reachable method has had exactly one turn (`histories_end`).
-/

namespace ObjectFlow.PointsTo

open Std State

/-! ## Moves -/

/-- What a step does: a pending method has its turn, or an entry of the traffic is polled. -/
inductive Move where
  | turn (m : MethodId)
  | poll (q : Pointer Obj) (objs : PointsToSet Obj)

namespace Move

def method? : Move → Option MethodId
  | turn m => some m
  | poll _ _ => none

/-- The statements that contribute in a move, in their order. -/
def stmts (p : Program) : Move → List (Site × Instr)
  | turn m => p.stmtsOf m
  | poll _ _ => []

end Move

/-- What the next step does. -/
def State.move? (s : State) : Option Move :=
  match s.pending, s.traffic.entries with
  | m :: _, _ => some (.turn m)
  | [], (q, objs) :: _ => some (.poll q objs)
  | [], [] => none

/-- The moves that have led the analysis of an entry method to a state. -/
inductive History (a : Setup) (entry : MethodId) : List Move → State → Prop
  | init : History a entry [] (start entry)
  | step {l s move t} : History a entry l s → s.move? = some move → step a s = some t →
      History a entry (l ++ [move]) t

/-- The methods that have had their turn, in this order. -/
def turns (l : List Move) : List MethodId := l.filterMap Move.method?

variable {a : Setup} {entry : MethodId} {l : List Move} {move : Move} {s t : State} {x : Outcome}

theorem exists_move (h : step a s = some t) : ∃ move, s.move? = some move := by
  unfold State.move?
  rcases step_cases h with ⟨m, rest, hp, -⟩ | ⟨q, objs, rest, hp, ht, -⟩
  · exact ⟨.turn m, by rw [hp]⟩
  · exact ⟨.poll q objs, by rw [hp, ht]⟩

/-- In its turn a method contributes its statements, in their order. -/
theorem step_of_turn {m : MethodId} (h : s.move? = some (.turn m)) (hs : step a s = some t) :
    t = (Move.stmts a.program (.turn m)).foldl (fun s y => s.addStmt a y.1 y.2)
      { s with pending := s.pending.tail } := by
  unfold State.move? at h
  rcases step_cases hs with ⟨k, rest, hp, rfl⟩ | ⟨q, objs, rest, hp, ht, -⟩
  · rw [hp] at h ⊢
    cases h
    rfl
  · rw [hp, ht] at h
    cases h

/-- A move gives its turn to the first pending method, if there is one. -/
theorem method?_of_move? (h : s.move? = some move) : move.method? = s.pending.head? := by
  unfold State.move? at h
  split at h
  · rename_i hp
    rw [← Option.some.inj h, hp]
    rfl
  · rename_i hp _
    rw [← Option.some.inj h, hp]
    rfl
  · cases h

theorem turns_concat (h : s.move? = some move) :
    turns (l ++ [move]) = turns l ++ s.pending.head?.toList := by
  rw [turns, List.filterMap_append, ← method?_of_move? h, turns]
  cases hm : move.method? <;> simp [hm]

/-- The statements of the methods that have had their turn are those that have contributed. -/
theorem flatMap_stmts (p : Program) (l : List Move) :
    l.flatMap (Move.stmts p) = (turns l).flatMap p.stmtsOf := by
  induction l with
  | nil => rfl
  | cons move l ih =>
    cases move with
    | turn m => exact congrArg (p.stmtsOf m ++ ·) ih
    | poll q objs => exact ih

namespace History

/-! ## Invariants -/

theorem invariant (h : History a entry l s) (ho : ∀ q l, (a.order q l).Perm l) :
    Invariant a entry s := by
  induction h with
  | init => exact invariant_start
  | step _ _ hs ih => exact ih.step ho hs

/-- An outcome that tracks all steps from its entry on bounds every state of the analysis. -/
theorem within_of_tracks (h : History a entry l s) (hx : x.reaches entry)
    (ht : ∀ l t, History a entry l t → x.Tracks a t) (ho : ∀ q l, (a.order q l).Perm l) :
    Within x s := by
  induction h with
  | init => exact within_start hx
  | step h hmove hs ih => exact ih.step (ht _ _ (h.step hmove hs)) ho hs

/-- So does one that meets all demands. -/
theorem within (h : History a entry l s) (hx : x.Meets a entry)
    (ho : ∀ q l, (a.order q l).Perm l) : Within x s :=
  h.within_of_tracks hx.entry (fun _ t _ => hx.tracks t) ho

/-- The reachable methods are those that have had their turn and those that are pending. -/
theorem turns_append_pending (h : History a entry l s) :
    turns l ++ s.pending = s.calls.reachable ∧ s.calls.reachable.Nodup := by
  induction h with
  | init => exact ⟨rfl, List.nodup_singleton entry⟩
  | @step l s move t _ hmove hs ih =>
    obtain ⟨u, hcalls, hpending, hext⟩ := step_extends hs
    obtain ⟨new, hreach, hwait⟩ := hext.found
    refine ⟨?_, hext.nodup (hcalls ▸ ih.2)⟩
    calc turns (l ++ [move]) ++ t.pending
        = turns l ++ (s.pending.head?.toList ++ s.pending.tail) ++ new := by
          rw [turns_concat hmove, hwait, hpending]
          simp only [List.append_assoc]
      _ = turns l ++ s.pending ++ new := by cases s.pending <;> rfl
      _ = t.calls.reachable := by rw [ih.1, hreach, hcalls]

/-- No method has two turns. -/
theorem nodup_turns (h : History a entry l s) : (turns l).Nodup := by
  obtain ⟨hall, hnodup⟩ := h.turns_append_pending
  rw [← hall] at hnodup
  exact hnodup.of_append_left

/-- In the end every reachable method has had its turn. -/
theorem turns_eq_reachable (h : History a entry l s) (hend : PointsTo.step a s = none) :
    turns l = s.calls.reachable := by
  obtain ⟨hall, -⟩ := h.turns_append_pending
  rwa [(step_eq_none_iff.1 hend).1, List.append_nil] at hall

/-- In the end the statements of all turns have contributed. -/
theorem contributed (h : History a entry l s) (ho : ∀ q l, (a.order q l).Perm l)
    (hend : PointsTo.step a s = none) {y : Site × Instr}
    (hy : y ∈ l.flatMap (Move.stmts a.program)) : Contributed a y s := by
  rw [flatMap_stmts, h.turns_eq_reachable hend] at hy
  obtain ⟨m, hm, hy⟩ := List.mem_flatMap.1 hy
  rcases (h.invariant ho).contributed m hm with hwait | hcon
  · rw [(step_eq_none_iff.1 hend).1] at hwait
    cases hwait
  · exact hcon y hy

/-- Every move lowers the potential. -/
theorem length_add_potential_le (h : History a entry l s) (hp : a.program.Valid)
    (he : a.program.HasMethod entry) (ho : ∀ q l, (a.order q l).Perm l) :
    l.length + potential a s ≤ potential a (start entry) := by
  have hw := Setup.world_meets hp he
  induction h with
  | init => simp
  | step h _ hs ih =>
    have hlower := potential_step hp hw ho (h.within hw ho) hs
    rw [List.length_append, List.length_singleton]
    omega

end History

/-! ## The end -/

/-- The end of an iteration is the end of a history. -/
theorem exists_history {n : ℕ} (h : iterate (step a) n (start entry) = some t) :
    ∃ l, History a entry l t := by
  refine iterate_invariant (p := fun s => ∃ l, History a entry l s) (fun s t hl hs => ?_)
    ⟨[], .init⟩ h
  obtain ⟨l, hl⟩ := hl
  obtain ⟨move, hmove⟩ := exists_move hs
  exact ⟨l ++ [move], hl.step hmove hs⟩

/-- What an analysis finds is what the state contains at the end of a history. -/
theorem history_of_analyze {r : Result} (h : analyze a entry = some r) :
    ∃ l s, History a entry l s ∧ step a s = none ∧
      r = { calls := s.calls, sets := s.flow.sets, heap := heapOf a s.calls.reachable } := by
  obtain ⟨s, hs, hr⟩ := analyze_eq_some.1 h
  obtain ⟨l, hl⟩ := exists_history hs
  exact ⟨l, s, hl, step_eq_none_of_iterate hs, hr⟩

/-- No history of the analysis is as long as the budget. One of them ends with the result: by then
all reachable methods have had one turn each, in the order of their discovery, and each of their
statements has contributed exactly once. -/
theorem histories_end {d : Declarations} (hd : d.Built) (hb : d.build = .ok a.program)
    (he : a.program.HasMethod entry) (ho : ∀ q l, (a.order q l).Perm l) :
    (∀ l s, History a entry l s → l.length < budget a.program ∧ (turns l).Nodup) ∧
      ∃ l s, History a entry l s ∧ step a s = none ∧ turns l = s.calls.reachable ∧
        l.flatMap (Move.stmts a.program) = s.calls.reachable.flatMap a.program.stmtsOf ∧
        (l.flatMap (Move.stmts a.program)).Nodup ∧
        (∀ y ∈ l.flatMap (Move.stmts a.program), Contributed a y s) ∧ analyze a entry =
          some { calls := s.calls, sets := s.flow.sets, heap := heapOf a s.calls.reachable } := by
  have hp := Program.valid_of_build hd hb
  refine ⟨fun l s h => ⟨?_, h.nodup_turns⟩, ?_⟩
  · have hlower := h.length_add_potential_le hp he ho
    have hstart := potential_start he
    omega
  · obtain ⟨r, hr⟩ := exists_analyze hp he ho
    obtain ⟨l, s, hl, hend, rfl⟩ := history_of_analyze hr
    have hstmts : l.flatMap (Move.stmts a.program) =
        s.calls.reachable.flatMap a.program.stmtsOf := by
      rw [flatMap_stmts, hl.turns_eq_reachable hend]
    have hnodup := hp.wellFormed.nodup_flatMap_stmtsOf hl.nodup_turns
    rw [← flatMap_stmts] at hnodup
    exact ⟨l, s, hl, hend, hl.turns_eq_reachable hend, hstmts, hnodup,
      fun y hy => hl.contributed ho hend hy, hr⟩

/-- A method that calls itself has one turn. -/
theorem histories_end_recursion : ∃ (d : Declarations) (p : Program), d.Built ∧ d.build = .ok p ∧
    p.callAt? ⟨⟨0⟩, 0⟩ = some ⟨.static, ⟨⟨0⟩, ⟨"void m()"⟩⟩, none, []⟩ ∧
      ∃ l s, History { program := p } ⟨0⟩ l s ∧ step { program := p } s = none ∧
        turns l = s.calls.reachable := by
  have h1 := Declarations.Built.empty.addClass "A" none [] (by simp) (by simp)
    (Declarations.addClass_first "A")
  have h2 := h1.addMethod ⟨0⟩ "m" [] .void true (by decide) (by decide) rfl
  have h3 := h2.addStmt ⟨0⟩ (.invoke none ⟨.static, ⟨⟨0⟩, ⟨"void m()"⟩⟩, none, []⟩) (by decide)
    (by decide) rfl
  obtain ⟨-, l, s, hl, hend, hturns, -⟩ := histories_end (a := { program := _ }) h3 rfl
    (show Declarations.HasMethod _ ⟨0⟩ by decide) fun _ l => .refl l
  exact ⟨_, _, h3, rfl, rfl, l, s, hl, hend, hturns⟩

end ObjectFlow.PointsTo
