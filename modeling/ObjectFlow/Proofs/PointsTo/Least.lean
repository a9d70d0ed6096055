import ObjectFlow.Proofs.PointsTo.Potential

/-!
# The points-to analysis finds the least closed findings

On a valid program the analysis of a method ends (`exists_analyze`). What it finds is closed
(`closed_of_analyze`) and part of all closed findings (`le_of_analyze`), in whatever order the
successors of pointers are served. `analyze_least` says so of built programs.
-/

namespace ObjectFlow.PointsTo

open Std State

variable {a : Setup} {entry : MethodId} {r : Result} {x : Findings}

/-- What an analysis finds. -/
def Result.findings (r : Result) : Findings where
  reaches m := m ∈ r.calls.reachable
  calls e := e ∈ r.calls.edges
  points q o := o ∈ r.points q

/-- The state in which an analysis ends. -/
theorem analyze_eq_some : analyze a entry = some r ↔
    ∃ s, iterate (step a) (budget a.program) (start entry) = some s ∧
      r = { calls := s.calls, sets := s.flow.sets, heap := heapOf a s.calls.reachable } := by
  simp only [analyze, Option.map_eq_some_iff, eq_comm (a := r)]

theorem exists_analyze (hp : a.program.Valid) (he : a.program.HasMethod entry)
    (ho : ∀ q l, (a.order q l).Perm l) : ∃ r, analyze a entry = some r := by
  have hw := Setup.world_meets hp he
  obtain ⟨s, hs⟩ := exists_iterate (p := Within a.world)
    (fun s t h hs => h.step (hw.tracks t) ho hs) (fun s t h hs => potential_step hp hw ho h hs)
    (within_start hw.entry) (potential_start he)
  exact ⟨_, analyze_eq_some.2 ⟨s, hs, rfl⟩⟩

theorem closed_of_analyze (ho : ∀ q l, (a.order q l).Perm l) (h : analyze a entry = some r) :
    Closed a entry r.findings := by
  obtain ⟨s, hs, rfl⟩ := analyze_eq_some.1 h
  have hinv : Invariant a entry s :=
    iterate_invariant (fun s t h hs => h.step ho hs) invariant_start hs
  exact (hinv.meets (step_eq_none_of_iterate hs)).closed

theorem le_of_analyze (hp : a.program.Valid) (ho : ∀ q l, (a.order q l).Perm l)
    (h : analyze a entry = some r) (hx : Closed a entry x) : r.findings ≤ x := by
  obtain ⟨s, hs, rfl⟩ := analyze_eq_some.1 h
  have hm := hx.meets hp
  have hw : Within x.outcome s :=
    iterate_invariant (fun s t h hs => h.step (hm.tracks t) ho hs) (within_start hm.entry) hs
  exact ⟨hw.reachable, hw.edges, fun q o => hw.points⟩

/-- The analysis of any method of a built program ends with the least closed findings. -/
theorem analyze_least {d : Declarations} (hd : d.Built) (hb : d.build = .ok a.program)
    (he : a.program.HasMethod entry) (ho : ∀ q l, (a.order q l).Perm l) :
    ∃ r, analyze a entry = some r ∧ Closed a entry r.findings ∧
      ∀ x, Closed a entry x → r.findings ≤ x := by
  have hp := Program.valid_of_build hd hb
  obtain ⟨r, hr⟩ := exists_analyze hp he ho
  exact ⟨r, hr, closed_of_analyze ho hr, fun x hx => le_of_analyze hp ho hr hx⟩

/-- The program

    A.make:  0: made = new A
             1: return made
    A.main:  0: b = new B
             1: box = new A
             2: box.f = b
             3: a = make()
             4: box.f = a
             5: u = box
             6: v = u
             7: w = v
             8: z = box
             9: x = w.f
             10: y = x.m()

where `B` extends `A` and the methods `m` of both classes return `this`. `box` flows to `u` and to
`z`, its field gets an object of `main` and one that `make` returns. -/
theorem built_relay : ∃ (d : Declarations) (p : Program), d.Built ∧ d.build = .ok p ∧
    p.HasMethod ⟨1⟩ ∧ ∀ r ∈ analyze { program := p, order := fun _ l => l.reverse } ⟨1⟩,
      r.calls.reachable = [⟨1⟩, ⟨0⟩, ⟨2⟩, ⟨3⟩] ∧
      (r.points (.var ⟨11⟩)).toList.map Obj.site = [⟨⟨1⟩, 1⟩] ∧
      (r.points (.var ⟨10⟩)).toList.map Obj.site = [⟨⟨0⟩, 0⟩, ⟨⟨1⟩, 0⟩] := by
  have h := Declarations.Built.empty.addClass "A" none [] (by simp) (by simp)
    (Declarations.addClass_first "A")
  replace h := h.addClass "B" (some ⟨0⟩) [] (by decide) (by simp)
    (Declarations.addClass_fresh _ _ (by simp))
  replace h := h.addField ⟨0⟩ "f" (.cls ⟨0⟩) false (by decide) (by decide)
  replace h := h.addMethod ⟨0⟩ "make" [] (.cls ⟨0⟩) true (by decide) (by decide) rfl
  replace h := h.addMethod ⟨0⟩ "main" [] .void true (by decide) (by decide) rfl
  replace h := h.addMethod ⟨1⟩ "m" [] (.cls ⟨0⟩) false (by decide) (by decide) rfl
  replace h := h.addMethod ⟨0⟩ "m" [] (.cls ⟨0⟩) false (by decide) (by decide) rfl
  -- the variables `this` of the methods `m` come first
  replace h := h.addVar ⟨0⟩ "made" (.cls ⟨0⟩) (by decide) (by decide) rfl
  replace h := h.addVar ⟨1⟩ "b" (.cls ⟨0⟩) (by decide) (by decide) rfl
  replace h := h.addVar ⟨1⟩ "box" (.cls ⟨0⟩) (by decide) (by decide) rfl
  replace h := h.addVar ⟨1⟩ "a" (.cls ⟨0⟩) (by decide) (by decide) rfl
  replace h := h.addVar ⟨1⟩ "u" (.cls ⟨0⟩) (by decide) (by decide) rfl
  replace h := h.addVar ⟨1⟩ "v" (.cls ⟨0⟩) (by decide) (by decide) rfl
  replace h := h.addVar ⟨1⟩ "w" (.cls ⟨0⟩) (by decide) (by decide) rfl
  replace h := h.addVar ⟨1⟩ "x" (.cls ⟨0⟩) (by decide) (by decide) rfl
  replace h := h.addVar ⟨1⟩ "y" (.cls ⟨0⟩) (by decide) (by decide) rfl
  replace h := h.addVar ⟨1⟩ "z" (.cls ⟨0⟩) (by decide) (by decide) rfl
  replace h := h.addStmt ⟨0⟩ (.assign ⟨2⟩ (.new (.cls ⟨0⟩))) (by decide) (by decide) rfl
  replace h := h.addStmt ⟨0⟩ (.ret (some ⟨2⟩)) (by decide) (by decide) rfl
  replace h := h.addStmt ⟨1⟩ (.assign ⟨3⟩ (.new (.cls ⟨1⟩))) (by decide) (by decide) rfl
  replace h := h.addStmt ⟨1⟩ (.assign ⟨4⟩ (.new (.cls ⟨0⟩))) (by decide) (by decide) rfl
  replace h := h.addStmt ⟨1⟩ (.storeField (.object ⟨4⟩ ⟨0⟩) ⟨3⟩) (by decide) (by decide) rfl
  replace h := h.addStmt ⟨1⟩ (.invoke (some ⟨5⟩) ⟨.static, ⟨⟨0⟩, ⟨"A make()"⟩⟩, none, []⟩)
    (by decide) (by decide) rfl
  replace h := h.addStmt ⟨1⟩ (.storeField (.object ⟨4⟩ ⟨0⟩) ⟨5⟩) (by decide) (by decide) rfl
  replace h := h.addStmt ⟨1⟩ (.assign ⟨6⟩ (.var ⟨4⟩)) (by decide) (by decide) rfl
  replace h := h.addStmt ⟨1⟩ (.assign ⟨7⟩ (.var ⟨6⟩)) (by decide) (by decide) rfl
  replace h := h.addStmt ⟨1⟩ (.assign ⟨8⟩ (.var ⟨7⟩)) (by decide) (by decide) rfl
  replace h := h.addStmt ⟨1⟩ (.assign ⟨11⟩ (.var ⟨4⟩)) (by decide) (by decide) rfl
  replace h := h.addStmt ⟨1⟩ (.assign ⟨9⟩ (.field (.object ⟨8⟩ ⟨0⟩))) (by decide) (by decide) rfl
  replace h := h.addStmt ⟨1⟩ (.invoke (some ⟨10⟩) ⟨.virtual, ⟨⟨0⟩, ⟨"A m()"⟩⟩, some ⟨9⟩, []⟩)
    (by decide) (by decide) rfl
  replace h := h.addStmt ⟨2⟩ (.ret (some ⟨0⟩)) (by decide) (by decide) rfl
  replace h := h.addStmt ⟨3⟩ (.ret (some ⟨1⟩)) (by decide) (by decide) rfl
  exact ⟨_, _, h, rfl, show Declarations.HasMethod _ ⟨1⟩ by decide, by decide +kernel⟩

/-- On that program, with successors in reversed order, both objects in the field of `box` come to
the call of `m`, and back from it. -/
theorem analyze_least_relay : ∃ (d : Declarations) (p : Program), d.Built ∧ d.build = .ok p ∧
    ∃ r, analyze { program := p, order := fun _ l => l.reverse } ⟨1⟩ = some r ∧
      Closed { program := p, order := fun _ l => l.reverse } ⟨1⟩ r.findings ∧
      (∀ x, Closed { program := p, order := fun _ l => l.reverse } ⟨1⟩ x → r.findings ≤ x) ∧
      r.calls.reachable = [⟨1⟩, ⟨0⟩, ⟨2⟩, ⟨3⟩] ∧
      (r.points (.var ⟨11⟩)).toList.map Obj.site = [⟨⟨1⟩, 1⟩] ∧
      (r.points (.var ⟨10⟩)).toList.map Obj.site = [⟨⟨0⟩, 0⟩, ⟨⟨1⟩, 0⟩] := by
  obtain ⟨d, p, hd, hb, hmain, hfacts⟩ := built_relay
  obtain ⟨r, hr, hclosed, hleast⟩ :=
    @analyze_least { program := p, order := fun _ l => l.reverse } ⟨1⟩ d hd hb hmain
      fun _ l => l.reverse_perm
  exact ⟨d, p, hd, hb, r, hr, hclosed, hleast, hfacts r hr⟩

end ObjectFlow.PointsTo
