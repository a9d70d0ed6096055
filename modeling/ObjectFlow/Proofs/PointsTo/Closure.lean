import ObjectFlow.PointsTo.Solver
import ObjectFlow.Proofs.Program.Sites

/-!
# Closed findings

`Findings` are methods, calls, and objects at pointers. They are `Closed` for an entry method if
they contain it and whatever the statements of their methods, the accesses and calls through their
pointers, and the bindings of their calls ask for. This is the meaning of the analysis, said without
its state.

`Outcome.Meets` is the same in the terms of the solver: findings with the flows behind them meet all
demands of `PointsTo/Demand`. On built programs the two agree (`Outcome.Meets.closed`,
`Closed.meets`).
-/

namespace ObjectFlow.PointsTo

open Std

/-- Methods, calls, and the objects that pointers may point to. -/
structure Findings where
  reaches : MethodId → Prop
  calls : CallEdge → Prop
  points : Pointer Obj → Obj → Prop

namespace Findings

instance : LE Findings := ⟨fun x y => (∀ m, x.reaches m → y.reaches m) ∧
  (∀ e, x.calls e → y.calls e) ∧ ∀ q o, x.points q o → y.points q o⟩

/-- Whatever `q` points to, `r` points to. -/
def Flows (x : Findings) (q r : Pointer Obj) : Prop := ∀ o, x.points q o → x.points r o

end Findings

/-- The findings contain the entry and all that follows from what they contain. -/
structure Closed (a : Setup) (entry : MethodId) (x : Findings) : Prop where
  entry : x.reaches entry
  new {m s v type} : x.reaches m → (s, .assign v (.new type)) ∈ a.program.stmtsOf m →
    x.points (.var v) (a.heap s type)
  copy {m s v w} : x.reaches m → (s, .assign v (.var w)) ∈ a.program.stmtsOf m →
    x.Flows (.var w) (.var v)
  cast {m s v w type} : x.reaches m → (s, .assign v (.cast type w)) ∈ a.program.stmtsOf m →
    x.Flows (.var w) (.var v)
  loadStatic {m s v f} : x.reaches m →
    (s, .assign v (.field (.static f))) ∈ a.program.stmtsOf m → x.Flows (.static f) (.var v)
  storeStatic {m s v f} : x.reaches m →
    (s, .storeField (.static f) v) ∈ a.program.stmtsOf m → x.Flows (.var v) (.static f)
  staticCall {m s result call callee} : x.reaches m →
    (s, .invoke result call) ∈ a.program.stmtsOf m → call.kind = .static →
    a.program.declaredMethod? call.target.cls call.target.subsignature = some callee →
    x.calls ⟨.static, s, callee⟩
  loadField {v o s w base f} : x.points (.var v) o → s ∈ a.program.usesAs v .loadField →
    a.program.instrAt? s = some (.assign w (.field (.object base f))) →
    x.Flows (.field o f) (.var w)
  storeField {v o s w base f} : x.points (.var v) o → s ∈ a.program.usesAs v .storeField →
    a.program.instrAt? s = some (.storeField (.object base f) w) → x.Flows (.var w) (.field o f)
  loadElement {v o s w access} : x.points (.var v) o → s ∈ a.program.usesAs v .loadElement →
    a.program.instrAt? s = some (.assign w (.element access)) → x.Flows (.element o) (.var w)
  storeElement {v o s w access} : x.points (.var v) o → s ∈ a.program.usesAs v .storeElement →
    a.program.instrAt? s = some (.storeElement access w) → x.Flows (.var w) (.element o)
  receiverCall {v o s result call callee} : x.points (.var v) o →
    s ∈ a.program.usesAs v .invoke → a.program.instrAt? s = some (.invoke result call) →
    a.program.calleeOn? (a.program.classOfType? o.type) call = some callee →
    x.calls ⟨call.kind, s, callee⟩
  receiver {v o s result call callee b this} : x.points (.var v) o →
    s ∈ a.program.usesAs v .invoke → a.program.instrAt? s = some (.invoke result call) →
    a.program.calleeOn? (a.program.classOfType? o.type) call = some callee →
    a.program.body? callee = some b → b.this = some this → x.points (.var this) o
  callee {e} : x.calls e → x.reaches e.callee
  argument {e result call b arg param} {n : Nat} : x.calls e →
    a.program.instrAt? e.site = some (.invoke result call) →
    a.program.body? e.callee = some b → call.args[n]? = some arg → b.params[n]? = some param →
    x.Flows (.var arg) (.var param)
  result {e r call b v} : x.calls e →
    a.program.instrAt? e.site = some (.invoke (some r) call) →
    a.program.body? e.callee = some b → v ∈ b.returnVars → x.Flows (.var v) (.var r)

/-- Findings with the flows behind them. -/
structure Outcome extends Findings where
  flows : FlowEdge → Prop

/-- The flows that a call binds. -/
def bindings (p : Program) (e : CallEdge) : List FlowEdge :=
  match p.instrAt? e.site with
  | some i => callFlows p.toDeclarations e.callee i
  | none => []

/-- The outcome meets what the entry and its own contents demand. -/
structure Outcome.Meets (a : Setup) (entry : MethodId) (x : Outcome) : Prop where
  entry : x.reaches entry
  new {m s i v type} : x.reaches m → (s, i) ∈ a.program.stmtsOf m →
    allocation? i = some (v, type) → x.points (.var v) (a.heap s type)
  copy {m s i e} : x.reaches m → (s, i) ∈ a.program.stmtsOf m → copyEdge? i = some e → x.flows e
  static {m s i e} : x.reaches m → (s, i) ∈ a.program.stmtsOf m →
    staticCall? a.program s i = some e → x.calls e
  access {v o e} : x.points (.var v) o → e ∈ accessFlows a.program v o → x.flows e
  receiverCall {v o e} : x.points (.var v) o → e ∈ receiverCalls a.program v o → x.calls e
  receiver {v o e this} : x.points (.var v) o → e ∈ receiverCalls a.program v o →
    thisVar? a.program.toDeclarations e.callee = some this → x.points (.var this) o
  callee {e} : x.calls e → x.reaches e.callee
  binding {e f} : x.calls e → f ∈ bindings a.program e → x.flows f
  along {e o} : x.flows e → x.points e.1 o → x.points e.2 o

/-! ## Demands, one by one -/

section
variable {p : Program} {v : VarId} {o : Obj}

theorem allocation?_iff {i : Instr} {type : Ty} :
    allocation? i = some (v, type) ↔ i = .assign v (.new type) := by
  unfold allocation?
  split <;> simp_all

theorem mem_accessSites {s : Site} : s ∈ accessSites p v ↔
    s ∈ p.usesAs v .loadField ∨ s ∈ p.usesAs v .storeField ∨ s ∈ p.usesAs v .loadElement ∨
      s ∈ p.usesAs v .storeElement := by
  simp only [accessSites, List.mem_append, or_assoc]

theorem mem_accessFlows {e : FlowEdge} : e ∈ accessFlows p v o ↔
    ∃ s ∈ accessSites p v, ∃ i, p.instrAt? s = some i ∧ accessEdge? o i = some e := by
  simp only [accessFlows, List.mem_filterMap, Option.bind_eq_some_iff, Declarations.instrAt?,
    Option.map_eq_some_iff]
  constructor
  · rintro ⟨s, hs, st, hst, he⟩
    exact ⟨s, hs, _, ⟨st, hst, rfl⟩, he⟩
  · rintro ⟨s, hs, _, ⟨st, hst, rfl⟩, he⟩
    exact ⟨s, hs, st, hst, he⟩

theorem callAt?_iff {s : Site} {call : Invoke} :
    p.callAt? s = some call ↔ ∃ result, p.instrAt? s = some (.invoke result call) := by
  simp only [Declarations.callAt?, Declarations.instrAt?, Option.bind_eq_some_iff,
    Option.map_eq_some_iff]
  constructor
  · rintro ⟨st, hst, hc⟩
    cases hi : st.instr with
    | invoke result c =>
      simp only [hi, Instr.invoke?, Option.some.injEq] at hc
      exact ⟨result, st, hst, by rw [hi, hc]⟩
    | _ => simp [hi, Instr.invoke?] at hc
  · rintro ⟨result, st, hst, hi⟩
    exact ⟨st, hst, by rw [hi]; rfl⟩

theorem mem_receiverCalls {e : CallEdge} : e ∈ receiverCalls p v o ↔
    ∃ s ∈ p.usesAs v .invoke, ∃ result call callee,
      p.instrAt? s = some (.invoke result call) ∧
        p.calleeOn? (p.classOfType? o.type) call = some callee ∧ e = ⟨call.kind, s, callee⟩ := by
  simp only [receiverCalls, List.mem_filterMap, bind, Option.bind_eq_some_iff, pure,
    Option.some.injEq, callAt?_iff]
  constructor
  · rintro ⟨s, hs, call, ⟨result, hc⟩, callee, hk, rfl⟩
    exact ⟨s, hs, result, call, callee, hc, hk, rfl⟩
  · rintro ⟨s, hs, result, call, callee, hc, hk, rfl⟩
    exact ⟨s, hs, call, ⟨result, hc⟩, callee, hk, rfl⟩

theorem mem_bindingEdges {result : Option VarId} {call : Invoke} {b : Body} {e : FlowEdge} :
    e ∈ bindingEdges result call b ↔
      (∃ (n : Nat) (arg param : VarId), call.args[n]? = some arg ∧ b.params[n]? = some param ∧
        e = (.var arg, .var param)) ∨
      ∃ r, result = some r ∧ ∃ w ∈ b.returnVars, e = (.var w, .var r) := by
  simp only [bindingEdges, List.mem_append, List.mem_map, Prod.exists]
  refine or_congr ⟨?_, ?_⟩ ?_
  · rintro ⟨arg, param, h, rfl⟩
    obtain ⟨n, hn⟩ := List.mem_iff_getElem?.1 h
    obtain ⟨h1, h2⟩ := List.getElem?_zip_eq_some.1 hn
    exact ⟨n, arg, param, h1, h2, rfl⟩
  · rintro ⟨n, arg, param, h1, h2, rfl⟩
    exact ⟨arg, param, List.mem_iff_getElem?.2 ⟨n, List.getElem?_zip_eq_some.2 ⟨h1, h2⟩⟩, rfl⟩
  · cases result with
    | none => simp
    | some r => simp [eq_comm]

theorem mem_callFlows {d : Declarations} {callee : MethodId} {i : Instr} {e : FlowEdge} :
    e ∈ callFlows d callee i ↔ ∃ result call b, i = .invoke result call ∧
      d.body? callee = some b ∧ e ∈ bindingEdges result call b := by
  cases i with
  | invoke result call =>
    simp only [callFlows, Instr.invoke.injEq]
    cases d.body? callee with
    | none => simp
    | some b =>
      constructor
      · exact fun h => ⟨result, call, b, ⟨rfl, rfl⟩, rfl, h⟩
      · rintro ⟨_, _, _, ⟨rfl, rfl⟩, hb, h⟩
        exact Option.some.inj hb ▸ h
  | _ => simp [callFlows]

theorem mem_bindings {e : CallEdge} {f : FlowEdge} : f ∈ bindings p e ↔
    ∃ result call b, p.instrAt? e.site = some (.invoke result call) ∧
      p.body? e.callee = some b ∧ f ∈ bindingEdges result call b := by
  unfold bindings
  split
  · rename_i i hi
    simp only [mem_callFlows, hi, Option.some.injEq]
  · rename_i hi
    simp [hi]

theorem thisVar?_iff {d : Declarations} {m : MethodId} {this : VarId} :
    thisVar? d m = some this ↔ ∃ b, d.body? m = some b ∧ b.this = some this := by
  simp only [thisVar?, Option.bind_eq_some_iff]

theorem staticCall?_iff {s : Site} {i : Instr} {e : CallEdge} :
    staticCall? p s i = some e ↔ ∃ result call callee, i = .invoke result call ∧
      call.kind = .static ∧
      p.declaredMethod? call.target.cls call.target.subsignature = some callee ∧
      e = ⟨.static, s, callee⟩ := by
  cases i with
  | invoke result call =>
    simp only [staticCall?, Instr.invoke.injEq]
    cases hk : call.kind with
    | static =>
      simp only [Program.calleeOn?, hk, Option.map_eq_some_iff]
      constructor
      · rintro ⟨callee, hc, rfl⟩
        exact ⟨result, call, callee, ⟨rfl, rfl⟩, hk, hc, rfl⟩
      · rintro ⟨_, _, callee, ⟨rfl, rfl⟩, -, hc, rfl⟩
        exact ⟨callee, hc, rfl⟩
    | _ =>
      simp only [reduceCtorEq, false_iff]
      rintro ⟨_, _, _, ⟨-, rfl⟩, hs, -⟩
      simp [hk] at hs
  | _ => simp [staticCall?]

end

/-! ## The two forms agree -/

theorem Outcome.Meets.closed {a : Setup} {entry : MethodId} {x : Outcome} (h : x.Meets a entry) :
    Closed a entry x.toFindings where
  entry := h.entry
  new hm hs := h.new hm hs rfl
  copy hm hs _ ho := h.along (h.copy hm hs rfl) ho
  cast hm hs _ ho := h.along (h.copy hm hs rfl) ho
  loadStatic hm hs _ ho := h.along (h.copy hm hs rfl) ho
  storeStatic hm hs _ ho := h.along (h.copy hm hs rfl) ho
  staticCall hm hs hk hc := h.static hm hs (staticCall?_iff.2 ⟨_, _, _, rfl, hk, hc, rfl⟩)
  loadField hv hs hi _ ho :=
    h.along (h.access hv (mem_accessFlows.2
      ⟨_, mem_accessSites.2 (.inl hs), _, hi, rfl⟩)) ho
  storeField hv hs hi _ ho :=
    h.along (h.access hv (mem_accessFlows.2
      ⟨_, mem_accessSites.2 (.inr (.inl hs)), _, hi, rfl⟩)) ho
  loadElement hv hs hi _ ho :=
    h.along (h.access hv (mem_accessFlows.2
      ⟨_, mem_accessSites.2 (.inr (.inr (.inl hs))), _, hi, rfl⟩)) ho
  storeElement hv hs hi _ ho :=
    h.along (h.access hv (mem_accessFlows.2
      ⟨_, mem_accessSites.2 (.inr (.inr (.inr hs))), _, hi, rfl⟩)) ho
  receiverCall hv hs hi hc :=
    h.receiverCall hv (mem_receiverCalls.2 ⟨_, hs, _, _, _, hi, hc, rfl⟩)
  receiver hv hs hi hc hb ht :=
    h.receiver hv (mem_receiverCalls.2 ⟨_, hs, _, _, _, hi, hc, rfl⟩)
      (thisVar?_iff.2 ⟨_, hb, ht⟩)
  callee := h.callee
  argument he hi hb ha hp _ ho :=
    h.along (h.binding he (mem_bindings.2 ⟨_, _, _, hi, hb,
      mem_bindingEdges.2 (.inl ⟨_, _, _, ha, hp, rfl⟩)⟩)) ho
  result he hi hb hv _ ho :=
    h.along (h.binding he (mem_bindings.2 ⟨_, _, _, hi, hb,
      mem_bindingEdges.2 (.inr ⟨_, rfl, _, hv, rfl⟩)⟩)) ho

/-- The flows that findings respect. -/
def Findings.outcome (x : Findings) : Outcome := { x with flows := fun e => x.Flows e.1 e.2 }

theorem Closed.meets {a : Setup} {entry : MethodId} {x : Findings} (hp : a.program.Valid)
    (h : Closed a entry x) : x.outcome.Meets a entry where
  entry := h.entry
  new {m s i v type} hm hs hi := by
    unfold allocation? at hi
    split at hi <;> cases hi
    exact h.new hm hs
  copy {m s i e} hm hs hi := by
    unfold copyEdge? at hi
    split at hi <;> cases hi
    · exact h.copy hm hs
    · exact h.cast hm hs
    · exact h.loadStatic hm hs
    · exact h.storeStatic hm hs
  static hm hs hi := by
    obtain ⟨result, call, callee, rfl, hk, hc, rfl⟩ := staticCall?_iff.1 hi
    exact h.staticCall hm hs hk hc
  access {v o e} hv he := by
    obtain ⟨s, hs, i, hi, he⟩ := mem_accessFlows.1 he
    have hrole : ∃ use, i.baseUse? = some (v, use) := by
      have key : ∀ use, s ∈ a.program.usesAs v use → i.baseUse? = some (v, use) := fun use hu => by
        obtain ⟨i', hi', hb⟩ := hp.mem_usesAs.1 hu
        rw [hi, Option.some.injEq] at hi'
        rwa [hi']
      rcases mem_accessSites.1 hs with hs | hs | hs | hs
      all_goals exact ⟨_, key _ hs⟩
    -- the instruction alone decides in which role it is listed
    obtain ⟨use, hu⟩ := hrole
    have hs := hp.mem_usesAs.2 ⟨i, hi, hu⟩
    unfold accessEdge? at he
    split at he <;> cases he <;> cases hu
    · exact h.loadField hv hs hi
    · exact h.storeField hv hs hi
    · exact h.loadElement hv hs hi
    · exact h.storeElement hv hs hi
  receiverCall hv he := by
    obtain ⟨s, hs, result, call, callee, hi, hc, rfl⟩ := mem_receiverCalls.1 he
    exact h.receiverCall hv hs hi hc
  receiver hv he ht := by
    obtain ⟨s, hs, result, call, callee, hi, hc, rfl⟩ := mem_receiverCalls.1 he
    obtain ⟨b, hb, hw⟩ := thisVar?_iff.1 ht
    exact h.receiver hv hs hi hc hb hw
  callee := h.callee
  binding {e f} he hf := by
    obtain ⟨result, call, b, hi, hb, hf⟩ := mem_bindings.1 hf
    rcases mem_bindingEdges.1 hf with ⟨n, arg, param, h1, h2, rfl⟩ | ⟨r, rfl, w, hw, rfl⟩
    · exact h.argument he hi hb h1 h2
    · exact h.result he hi hb hw
  along he ho := he _ ho

end ObjectFlow.PointsTo
