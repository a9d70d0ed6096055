import Mathlib.Logic.Relation
import ObjectFlow.Proofs.PointsTo.History

/-!
# The points-to solver loses no update

`Visits a entry s`: the analysis of `entry` may come to the state `s`, each arrival on the way
serving the successors of its pointer and the new objects in orders of its own. In all these states
what has been found has had its consequences, or these are on their way (`Upkept`), and from one to
the next nothing is given up (`Grows`). So it does not matter whether an object or the flow that it
should take came first, nor whether both came of the same arrival (`updates_kept`).
-/

namespace ObjectFlow.PointsTo

open Std

namespace State

variable {a : Setup} {entry : MethodId} {p : Program} {s t u : State}

/-! ## Growth -/

/-- No finding is lost, and no object that is due. -/
structure Grows (s t : State) : Prop extends Keeps s t where
  points : ∀ q, ∀ o ∈ s.flow.points q, o ∈ t.flow.points q
  reachable : ∀ m ∈ s.calls.reachable, m ∈ t.calls.reachable

theorem Grows.refl (s : State) : Grows s s :=
  ⟨(Extends.refl s).keeps, fun _ _ h => h, fun _ h => h⟩

theorem Grows.trans (h : Grows s t) (k : Grows t u) : Grows s u :=
  ⟨h.toKeeps.trans k.toKeeps, fun q o ho => k.points q o (h.points q o ho),
    fun m hm => k.reachable m (h.reachable m hm)⟩

theorem Extends.grows (h : Extends s t) : Grows s t :=
  ⟨h.keeps, fun _ _ => h.mem_points.2, h.reachable⟩

/-- An entry of the traffic is taken, and its objects land. -/
theorem grows_land {q : Pointer Obj} {objs : PointsToSet Obj} {rest}
    (ht : s.traffic.entries = (q, objs) :: rest) :
    Grows s ({ s with traffic := ⟨rest⟩ }.land q objs) :=
  ⟨⟨fun _ h => h, fun _ h => h, fun _ _ => due_land ht⟩,
    fun _ _ ho => mem_points_land.2 (.inl ho), fun _ h => h⟩

theorem Advances.grows (h : Advances a s t) : Grows s t := by
  cases h with
  | @turn m rest hp =>
    have htake : Grows s { s with pending := rest } :=
      ⟨⟨fun _ h => h, fun _ h => h, fun _ _ h => h⟩, fun _ _ h => h, fun _ h => h⟩
    exact htake.trans (extends_addMethod _ m).grows
  | @arrival q objs rest succs news hp ht _ _ =>
    rcases arriveIn_cases (a := a) { s with traffic := ⟨rest⟩ } q objs succs news with
      ⟨rfl, h⟩ | h
    · rw [h]
      exact ⟨keeps_of_empty ht, fun _ _ h => h, fun _ h => h⟩
    · exact (grows_land ht).trans h.grows

end State

open State

variable {a : Setup} {entry : MethodId} {p : Program} {s t : State}

/-! ## Visited states -/

/-- The analysis may come to the state. -/
def Visits (a : Setup) (entry : MethodId) (s : State) : Prop :=
  Relation.ReflTransGen (Advances a) (start entry) s

theorem grows_of_advances (h : Relation.ReflTransGen (Advances a) s t) : Grows s t := by
  induction h with
  | refl => exact .refl s
  | tail _ hs ih => exact ih.trans hs.grows

namespace Visits

theorem invariant (h : Visits a entry s) : Invariant a entry s := by
  induction h with
  | refl => exact invariant_start
  | tail _ hs ih => exact ih.advances hs

theorem within {x : Outcome} (h : Visits a entry s) (hx : x.Meets a entry) : Within x s := by
  induction h with
  | refl => exact within_start hx.entry
  | tail _ hs ih => exact ih.advances (hx.tracks _) hs

end Visits

/-- The states of the analysis that runs are visited. -/
theorem History.visits {l : List Move} (h : History a entry l s)
    (ho : ∀ q l, (a.order q l).Perm l) : Visits a entry s := by
  induction h with
  | init => exact .refl
  | step _ _ hs ih => exact .tail ih (advances_of_step ho hs)

/-! ## Sites of calls -/

/-- All that can be found, but only calls at statements that call. -/
def callsAtCalls (p : Program) : Outcome where
  reaches _ := True
  calls e := ∃ result call, p.instrAt? e.site = some (.invoke result call)
  points _ _ := True
  flows _ := True

theorem callsAtCalls_meets (hp : a.program.Valid) : (callsAtCalls a.program).Meets a entry where
  entry := trivial
  new _ _ _ := trivial
  copy _ _ _ := trivial
  static {m s i e} _ hs hi := by
    obtain ⟨result, call, callee, rfl, -, -, rfl⟩ := staticCall?_iff.1 hi
    exact ⟨result, call, hp.wellFormed.instrAt? hs⟩
  access _ _ := trivial
  receiverCall _ he := by
    obtain ⟨s, -, result, call, callee, hi, -, rfl⟩ := mem_receiverCalls.1 he
    exact ⟨result, call, hi⟩
  receiver _ _ _ := trivial
  callee _ := trivial
  binding _ _ := trivial
  along _ _ := trivial

/-! ## Upkeep -/

/-- What has been found has had its consequences: objects have taken the flows from where they are,
or are about to; all accesses and calls through a variable have been served for the objects that it
points to; calls have bound arguments and results. -/
structure Upkept (p : Program) (s : State) : Prop where
  along {q r o} : s.HasFlow (q, r) → o ∈ s.flow.points q → s.Due r o
  access {v o site i use e} : o ∈ s.flow.points (.var v) → p.instrAt? site = some i →
    i.baseUse? = some (v, use) → accessEdge? o i = some e → s.HasFlow e
  receiverCall {v o site result call callee} : o ∈ s.flow.points (.var v) →
    p.instrAt? site = some (.invoke result call) → call.base = some v →
    p.calleeOn? (p.classOfType? o.type) call = some callee →
    ⟨call.kind, site, callee⟩ ∈ s.calls.edges
  receiver {v o site result call callee b this} : o ∈ s.flow.points (.var v) →
    p.instrAt? site = some (.invoke result call) → call.base = some v →
    p.calleeOn? (p.classOfType? o.type) call = some callee →
    p.body? callee = some b → b.this = some this → s.Due (.var this) o
  site {e} : e ∈ s.calls.edges → ∃ result call, p.instrAt? e.site = some (.invoke result call)
  argument {e result call b arg param} {n : Nat} : e ∈ s.calls.edges →
    p.instrAt? e.site = some (.invoke result call) → p.body? e.callee = some b →
    call.args[n]? = some arg → b.params[n]? = some param → s.HasFlow (.var arg, .var param)
  result {e r call b v} : e ∈ s.calls.edges →
    p.instrAt? e.site = some (.invoke (some r) call) → p.body? e.callee = some b →
    v ∈ b.returnVars → s.HasFlow (.var v, .var r)

/-- A site at which a variable is the base of an access is listed as one. -/
theorem mem_accessSites_of_baseUse (hp : p.Valid) {v : VarId} {o : Obj} {site : Site} {i : Instr}
    {use : BaseUse} {e : FlowEdge} (hi : p.instrAt? site = some i)
    (hu : i.baseUse? = some (v, use)) (he : accessEdge? o i = some e) : site ∈ accessSites p v := by
  have hs := hp.mem_usesAs.2 ⟨i, hi, hu⟩
  unfold accessEdge? at he
  rw [mem_accessSites]
  split at he <;> cases he <;> cases hu
  · exact .inl hs
  · exact .inr (.inl hs)
  · exact .inr (.inr (.inl hs))
  · exact .inr (.inr (.inr hs))

theorem mem_receiverCalls_of_base (hp : p.Valid) {v : VarId} {o : Obj} {site : Site}
    {result : Option VarId} {call : Invoke} {callee : MethodId}
    (hi : p.instrAt? site = some (.invoke result call)) (hbase : call.base = some v)
    (hc : p.calleeOn? (p.classOfType? o.type) call = some callee) :
    ⟨call.kind, site, callee⟩ ∈ receiverCalls p v o := by
  have hu : (Instr.invoke result call).baseUse? = some (v, .invoke) := by
    simp [Instr.baseUse?, hbase]
  exact mem_receiverCalls.2
    ⟨site, hp.mem_usesAs.2 ⟨_, hi, hu⟩, result, call, callee, hi, hc, rfl⟩

/-- In all visited states what has been found has had its consequences. -/
theorem Visits.upkept (h : Visits a entry s) (hp : a.program.Valid) : Upkept a.program s := by
  have hinv := h.invariant
  constructor
  case along => exact fun hf ho => hinv.carried _ hf _ ho
  case access =>
    intro v o site i use e ho hi hu he
    exact (hinv.served v o ho).access e
      (mem_accessFlows.2 ⟨site, mem_accessSites_of_baseUse hp hi hu he, i, hi, he⟩)
  case receiverCall =>
    exact fun ho hi hb hc =>
      ((hinv.served _ _ ho).receiverCall _ (mem_receiverCalls_of_base hp hi hb hc)).1
  case receiver =>
    exact fun ho hi hb hc hbody hthis =>
      ((hinv.served _ _ ho).receiverCall _ (mem_receiverCalls_of_base hp hi hb hc)).2 _
        (thisVar?_iff.2 ⟨_, hbody, hthis⟩)
  case site => exact fun he => (h.within (callsAtCalls_meets hp)).edges _ he
  case argument =>
    exact fun he hi hb harg hparam => hinv.bound _ he _
      (mem_bindings.2 ⟨_, _, _, hi, hb, mem_bindingEdges.2 (.inl ⟨_, _, _, harg, hparam, rfl⟩)⟩)
  case result =>
    exact fun he hi hb hv => hinv.bound _ he _
      (mem_bindings.2 ⟨_, _, _, hi, hb, mem_bindingEdges.2 (.inr ⟨_, rfl, _, hv, rfl⟩)⟩)

/-- Pending methods have their turns until none is pending. -/
theorem Visits.exists_drained (h : Visits a entry s) (hp : a.program.Valid)
    (he : a.program.HasMethod entry) :
    ∃ t, Relation.ReflTransGen (Advances a) s t ∧ t.pending = [] := by
  have hw := Setup.world_meets hp he
  -- a turn may find methods, so it is the potential that falls, not the number of pending methods
  induction hn : potential a s using Nat.strong_induction_on generalizing s with
  | _ n ih =>
    subst hn
    cases hpend : s.pending with
    | nil => exact ⟨s, .refl, hpend⟩
    | cons m rest =>
      have hs : Advances a s ({ s with pending := rest }.addMethod a m) := .turn hpend
      have hlower := potential_advances hp hw (h.within hw) hs
      obtain ⟨t, ht, hdrained⟩ := ih _ hlower (.tail h hs) rfl
      exact ⟨t, .head hs ht, hdrained⟩

/-- In every state that the analysis of a method of a built program visits, what has been found has
had its consequences, and from there on nothing is lost. This is so whatever orders arrivals choose,
so it is so for the analysis that runs; and it is so whenever the pending methods are drained and
the work list is polled, to which every visited state leads. -/
theorem updates_kept {d : Declarations} (hd : d.Built) (hb : d.build = .ok a.program) :
    (∀ s, Visits a entry s → Upkept a.program s ∧
      ∀ t, Relation.ReflTransGen (Advances a) s t → Visits a entry t ∧ Grows s t) ∧
    ((∀ q l, (a.order q l).Perm l) → ∀ l s, History a entry l s → Visits a entry s) ∧
    (a.program.HasMethod entry → ∀ s, Visits a entry s →
      ∃ t, Relation.ReflTransGen (Advances a) s t ∧ t.pending = []) := by
  have hp := Program.valid_of_build hd hb
  refine ⟨fun s h => ⟨h.upkept hp, fun t hs => ⟨.trans h hs, grows_of_advances hs⟩⟩,
    fun ho l s h => h.visits ho, fun he s h => h.exists_drained hp he⟩

/-- The program

    0: x = new A
    1: x = x
    2: x.f = x

The first arrival finds the copy of `x` to itself, and adds the flow from `x` to the field. -/
theorem built_selfStore : ∃ (d : Declarations) (p : Program), d.Built ∧ d.build = .ok p ∧
    p.instrAt? ⟨⟨0⟩, 2⟩ = some (.storeField (.object ⟨0⟩ ⟨0⟩) ⟨0⟩) ∧
    (((step { program := p } (start ⟨0⟩)).bind (step { program := p })).any fun t =>
      t.flow.graph.hasEdge (.var ⟨0⟩) (.var ⟨0⟩) &&
        (t.flow.points (.var ⟨0⟩)).contains ⟨⟨⟨0⟩, 0⟩, .cls ⟨0⟩⟩) = true := by
  have h := Declarations.Built.empty.addClass "A" none [] (by simp) (by simp)
    (Declarations.addClass_first "A")
  replace h := h.addField ⟨0⟩ "f" (.cls ⟨0⟩) false (by decide) (by decide)
  replace h := h.addMethod ⟨0⟩ "main" [] .void true (by decide) (by decide) rfl
  replace h := h.addVar ⟨0⟩ "x" (.cls ⟨0⟩) (by decide) (by decide) rfl
  replace h := h.addStmt ⟨0⟩ (.assign ⟨0⟩ (.new (.cls ⟨0⟩))) (by decide) (by decide) rfl
  replace h := h.addStmt ⟨0⟩ (.assign ⟨0⟩ (.var ⟨0⟩)) (by decide) (by decide) rfl
  replace h := h.addStmt ⟨0⟩ (.storeField (.object ⟨0⟩ ⟨0⟩) ⟨0⟩) (by decide) (by decide) rfl
  exact ⟨_, _, h, rfl, rfl, by decide +kernel⟩

/-- After that arrival the new object is on its way along both flows. -/
theorem updates_kept_selfStore : ∃ (d : Declarations) (p : Program), d.Built ∧ d.build = .ok p ∧
    p.instrAt? ⟨⟨0⟩, 2⟩ = some (.storeField (.object ⟨0⟩ ⟨0⟩) ⟨0⟩) ∧
    ∃ t o, Visits { program := p } ⟨0⟩ t ∧ Upkept p t ∧ o ∈ t.flow.points (.var ⟨0⟩) ∧
      t.HasFlow (.var ⟨0⟩, .var ⟨0⟩) ∧ t.Due (.var ⟨0⟩) o ∧ t.Due (.field o ⟨0⟩) o ∧
      ∃ s, step { program := p } s = some t ∧ Grows s t := by
  obtain ⟨d, p, hd, hb, hi, hrun⟩ := built_selfStore
  obtain ⟨t, ht, hfacts⟩ := (Option.any_eq_true _ _).1 hrun
  obtain ⟨s, hs, hst⟩ := Option.bind_eq_some_iff.1 ht
  obtain ⟨hflow, hcontains⟩ := Bool.and_eq_true_iff.1 hfacts
  have ho := ExtTreeSet.contains_iff_mem.1 hcontains
  have horder : ∀ q l, (({ program := p } : Setup).order q l).Perm l := fun _ _ => .rfl
  have hfirst : Visits { program := p } ⟨0⟩ s := .tail .refl (advances_of_step horder hs)
  obtain ⟨hkept, -⟩ := @updates_kept { program := p } ⟨0⟩ d hd hb
  obtain ⟨hvisits, hgrows⟩ := (hkept s hfirst).2 t (.single (advances_of_step horder hst))
  have hup := (hkept t hvisits).1
  exact ⟨d, p, hd, hb, hi, t, _, hvisits, hup, ho, hflow, hup.along hflow ho,
    hup.along (hup.access ho hi rfl rfl) ho, s, hst, hgrows⟩

end ObjectFlow.PointsTo
