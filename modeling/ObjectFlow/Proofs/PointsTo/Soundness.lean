import ObjectFlow.Proofs.PointsTo.Least
import ObjectFlow.Proofs.PointsTo.Machine

/-!
# The points-to analysis covers all executions

`Covers x c`: the findings `x` contain the activated methods of the configuration `c`, the calls that
activated them, and for each object that a variable, a static field, a field or an element holds,
that the pointer may point to it. Closed findings cover the start and all that a step makes of
covered configurations (`Step.covers`), so they cover every run (`Run.covers`). `analyze_covers`
says so of the analysis.
-/

namespace ObjectFlow.PointsTo

open Std

variable {p : Program} {a : Setup} {entry : MethodId} {x : Findings} {heap heap' : List Cell}
  {statics : FieldId → Val} {act : Activation} {rest : List Activation} {c c' : Config}

/-- If the value is an object, the pointer may point to it. -/
def Held (x : Findings) (heap : List Cell) (q : Pointer Obj) (val : Val) : Prop :=
  ∀ addr, val = .ref addr → ∃ cell, heap[addr]? = some cell ∧ x.points q cell.obj

/-- The findings contain an activation and what its variables hold. -/
structure Activation.Covered (x : Findings) (heap : List Cell) (act : Activation) : Prop where
  method : x.reaches act.method
  call : ∀ e, act.call = some e → x.calls e ∧ e.callee = act.method
  locals : ∀ v, Held x heap (.var v) (act.locals v)

/-- The findings contain what the objects of a heap hold. -/
structure HeapCovered (x : Findings) (heap : List Cell) : Prop where
  fields : ∀ {addr : Nat} {cell}, heap[addr]? = some cell →
    ∀ f, Held x heap (.field cell.obj f) (cell.fields f)
  elements : ∀ {addr : Nat} {cell}, heap[addr]? = some cell →
    ∀ i, Held x heap (.element cell.obj) (cell.elements i)

/-- The findings contain all that a configuration consists of. -/
structure Covers (x : Findings) (c : Config) : Prop where
  stack : ∀ act ∈ c.stack, act.Covered x c.heap
  heap : HeapCovered x c.heap
  statics : ∀ f, Held x c.heap (.static f) (c.statics f)

/-! ## Held objects -/

/-- No object is lost or becomes another one. -/
def HeapGrows (heap heap' : List Cell) : Prop :=
  ∀ (addr : Nat) cell, heap[addr]? = some cell →
    ∃ cell', heap'[addr]? = some cell' ∧ cell'.obj = cell.obj

theorem HeapGrows.refl (heap : List Cell) : HeapGrows heap heap :=
  fun _ cell hc => ⟨cell, hc, rfl⟩

theorem HeapGrows.trans {heap'' : List Cell} (h : HeapGrows heap heap')
    (k : HeapGrows heap' heap'') : HeapGrows heap heap'' := fun addr cell hc => by
  obtain ⟨cell', hc', he⟩ := h addr cell hc
  obtain ⟨cell'', hc'', he'⟩ := k addr cell' hc'
  exact ⟨cell'', hc'', he'.trans he⟩

theorem held_literal {q : Pointer Obj} {l : Literal} : Held x heap q (.literal l) :=
  fun _ h => nomatch h

theorem Held.along {q r : Pointer Obj} {val : Val} (h : Held x heap q val) (hf : x.Flows q r) :
    Held x heap r val := fun addr ha => by
  obtain ⟨cell, hc, ho⟩ := h addr ha
  exact ⟨cell, hc, hf _ ho⟩

theorem Held.mono {q : Pointer Obj} {val : Val} (h : Held x heap q val)
    (hg : HeapGrows heap heap') : Held x heap' q val := fun addr ha => by
  obtain ⟨cell, hc, ho⟩ := h addr ha
  obtain ⟨cell', hc', he⟩ := hg addr cell hc
  exact ⟨cell', hc', he ▸ ho⟩

theorem Held.cell {q : Pointer Obj} {addr : Nat} {cell : Cell} {val : Val} (h : Held x heap q val)
    (hv : val = .ref addr) (hc : heap[addr]? = some cell) : x.points q cell.obj := by
  obtain ⟨cell', hc', ho⟩ := h addr hv
  rw [hc, Option.some.injEq] at hc'
  exact hc' ▸ ho

theorem Activation.Covered.mono (h : act.Covered x heap) (hg : HeapGrows heap heap') :
    act.Covered x heap' where
  method := h.method
  call := h.call
  locals v := (h.locals v).mono hg

theorem Activation.Covered.set {v : VarId} {val : Val} (h : act.Covered x heap)
    (hv : Held x heap (.var v) val) : (act.set v val).Covered x heap where
  method := h.method
  call := h.call
  locals w := by
    change Held x heap (.var w) (Function.update act.locals v val w)
    rw [Function.update_apply]
    split
    · rename_i hw
      exact hw ▸ hv
    · exact h.locals w

theorem heapGrows_modify (heap : List Cell) (addr : Nat) {f : Cell → Cell}
    (hf : ∀ cell, (f cell).obj = cell.obj) : HeapGrows heap (heap.modify addr f) := by
  intro n cell hc
  refine ⟨if addr = n then f cell else cell, by rw [List.getElem?_modify, hc]; rfl, ?_⟩
  split
  · exact hf cell
  · rfl

theorem heapGrows_append (heap : List Cell) (cell : Cell) : HeapGrows heap (heap ++ [cell]) :=
  fun _ cell hc => ⟨cell, by
    rw [List.getElem?_append_left (List.getElem?_eq_some_iff.1 hc).1, hc], rfl⟩

/-- A store to one object. -/
theorem HeapCovered.modify {addr : Nat} {f : Cell → Cell} (h : HeapCovered x heap)
    (hobj : ∀ cell, (f cell).obj = cell.obj)
    (hf : ∀ cell, heap[addr]? = some cell →
      (∀ g, Held x heap (.field cell.obj g) ((f cell).fields g)) ∧
      ∀ i, Held x heap (.element cell.obj) ((f cell).elements i)) :
    HeapCovered x (heap.modify addr f) := by
  have hg := heapGrows_modify heap addr hobj
  have key : ∀ {n : Nat} {cell' : Cell}, (heap.modify addr f)[n]? = some cell' →
      (∀ g, Held x heap (.field cell'.obj g) (cell'.fields g)) ∧
      ∀ i, Held x heap (.element cell'.obj) (cell'.elements i) := by
    intro n cell' hc'
    rw [List.getElem?_modify] at hc'
    obtain ⟨cell, hc, rfl⟩ := Option.map_eq_some_iff.1 hc'
    split
    · rename_i he
      rw [hobj]
      exact hf cell (he ▸ hc)
    · exact ⟨h.fields hc, h.elements hc⟩
  exact ⟨fun hc g => ((key hc).1 g).mono hg, fun hc i => ((key hc).2 i).mono hg⟩

/-- A new object holds nothing. -/
theorem HeapCovered.append (h : HeapCovered x heap) (o : Obj) :
    HeapCovered x (heap ++ [{ obj := o }]) := by
  have hg := heapGrows_append heap { obj := o }
  have key : ∀ {n : Nat} {cell : Cell}, (heap ++ [{ obj := o }])[n]? = some cell →
      heap[n]? = some cell ∨ cell = { obj := o } := by
    intro n cell hc
    rcases Nat.lt_or_ge n heap.length with hn | hn
    · exact .inl (by rwa [List.getElem?_append_left hn] at hc)
    · rw [List.getElem?_append_right hn] at hc
      exact .inr (List.mem_singleton.1 (List.mem_of_getElem? hc))
  refine ⟨fun hc f => ?_, fun hc i => ?_⟩
  · rcases key hc with hc | rfl
    · exact (h.fields hc f).mono hg
    · exact held_literal
  · rcases key hc with hc | rfl
    · exact (h.elements hc i).mono hg
    · exact held_literal

/-- A variable at the start of a body holds the receiver, an argument, or no object. -/
theorem bindLocals_cases (b : Body) (receiver : Val) (args : List Val) (v : VarId) :
    (b.this = some v ∧ bindLocals b receiver args v = receiver) ∨
    (∃ n : Nat, b.params[n]? = some v ∧ args[n]? = some (bindLocals b receiver args v)) ∨
    bindLocals b receiver args v = .null := by
  unfold bindLocals
  split
  · exact .inl ⟨‹_›, rfl⟩
  · cases hl : (b.params.zip args).lookup v with
    | none => exact .inr (.inr rfl)
    | some val =>
      obtain ⟨l, l', hz, -⟩ := List.lookup_eq_some_iff.1 hl
      have hm : (v, val) ∈ b.params.zip args := by simp [hz]
      obtain ⟨n, hn⟩ := List.mem_iff_getElem?.1 hm
      obtain ⟨h1, h2⟩ := List.getElem?_zip_eq_some.1 hn
      exact .inr (.inl ⟨n, h1, h2⟩)

/-! ## Statements and calls -/

section
variable (hx : Closed a entry x) (hp : a.program.Valid)
include hx hp

/-- What an expression evaluates to may be held by the variable that is assigned. -/
theorem held_eval {s : Site} {v : VarId} {e : Exp} {val : Val}
    (hact : act.Covered x heap) (hheap : HeapCovered x heap)
    (hstatics : ∀ f, Held x heap (.static f) (statics f))
    (hs : (s, .assign v e) ∈ a.program.stmtsOf act.method)
    (he : Eval heap statics act.locals e val) : Held x heap (.var v) val := by
  have hi := hp.wellFormed.instrAt? hs
  cases he with
  | var => exact (hact.locals _).along (hx.copy hact.method hs)
  | cast => exact (hact.locals _).along (hx.cast hact.method hs)
  | static => exact (hstatics _).along (hx.loadStatic hact.method hs)
  | field hb hc =>
    refine (hheap.fields hc _).along
      (hx.loadField ((hact.locals _).cell hb hc) ?_ hi)
    exact hp.mem_usesAs.2 ⟨_, hi, rfl⟩
  | element hb hc _ =>
    refine (hheap.elements hc _).along
      (hx.loadElement ((hact.locals _).cell hb hc) ?_ hi)
    exact hp.mem_usesAs.2 ⟨_, hi, rfl⟩
  | _ => exact held_literal

/-- The call of a method is found, and so is its receiver. -/
theorem target_covered {s : Site} {result : Option VarId} {call : Invoke} {callee : MethodId}
    {receiver : Val} (hact : act.Covered x heap)
    (hs : (s, .invoke result call) ∈ a.program.stmtsOf act.method)
    (ht : Target a.program heap act.locals call callee receiver) :
    x.calls ⟨call.kind, s, callee⟩ ∧ ∀ b this, a.program.body? callee = some b →
      b.this = some this → Held x heap (.var this) receiver := by
  have hi := hp.wellFormed.instrAt? hs
  have key : ∀ {base addr cell}, call.base = some base → act.locals base = .ref addr →
      heap[addr]? = some cell →
      a.program.calleeOn? (a.program.classOfType? cell.obj.type) call = some callee →
      x.calls ⟨call.kind, s, callee⟩ ∧ ∀ b this, a.program.body? callee = some b →
        b.this = some this → Held x heap (.var this) (.ref addr) := by
    intro base addr cell hb hl hc hcallee
    have ho := (hact.locals base).cell hl hc
    have hu : s ∈ a.program.usesAs base .invoke :=
      hp.mem_usesAs.2 ⟨_, hi, by simp [Instr.baseUse?, hb]⟩
    refine ⟨hx.receiverCall ho hu hi hcallee, fun b this hbody ht addr' ha => ?_⟩
    cases ha
    exact ⟨cell, hc, hx.receiver ho hu hi hcallee hbody ht⟩
  cases ht with
  | static hk hd =>
    rw [hk]
    exact ⟨hx.staticCall hact.method hs hk hd, fun _ _ _ _ => held_literal⟩
  | special hk hb hl hc hd =>
    refine key hb hl hc ?_
    simp only [Program.calleeOn?, hk]
    exact hd
  | dynamic hk hb hl hc hcls hd =>
    refine key hb hl hc ?_
    rcases hk with hk | hk
    all_goals
      simp only [Program.calleeOn?, hk, hcls]
      exact hd

/-- The variables of a method that has just been called. -/
theorem held_bindLocals {s : Site} {result : Option VarId} {call : Invoke} {callee : MethodId}
    {receiver : Val} {b : Body} (hact : act.Covered x heap)
    (hs : (s, .invoke result call) ∈ a.program.stmtsOf act.method)
    (hc : x.calls ⟨call.kind, s, callee⟩) (hb : a.program.body? callee = some b)
    (hr : ∀ this, b.this = some this → Held x heap (.var this) receiver) (v : VarId) :
    Held x heap (.var v) (bindLocals b receiver (call.args.map act.locals) v) := by
  rcases bindLocals_cases b receiver (call.args.map act.locals) v with
    ⟨hv, he⟩ | ⟨n, hn, he⟩ | he
  · rw [he]
    exact hr v hv
  · obtain ⟨arg, ha, he⟩ := Option.map_eq_some_iff.1 ((List.getElem?_map ..).symm.trans he)
    rw [← he]
    exact (hact.locals arg).along (hx.argument hc (hp.wellFormed.instrAt? hs) hb ha hn)
  · rw [he]
    exact held_literal

omit hp in
/-- A returned value may be held by the variable that takes the result. -/
theorem Activation.Covered.receive {s : Site} {v : VarId} {caller : Activation}
    (hact : act.Covered x heap) (hcaller : caller.Covered x heap)
    (hs : (s, .ret (some v)) ∈ a.program.stmtsOf act.method) :
    (caller.receive a.program act.call (act.locals v)).Covered x heap := by
  unfold Activation.receive
  split
  · rename_i r hr
    obtain ⟨e, he, hr⟩ := Option.bind_eq_some_iff.1 hr
    obtain ⟨hcall, hm⟩ := hact.call e he
    obtain ⟨b, st, hb, hst, -, hret⟩ := Declarations.mem_stmtsOf.1 hs
    have hv : v ∈ b.returnVars := Program.mem_returnVars.2 ⟨st, hst, hret.symm⟩
    unfold Activation.resultOf? at hr
    split at hr
    · rename_i result call hi
      subst hr
      exact hcaller.set ((hact.locals v).along (hx.result hcall hi (hm ▸ hb) hv))
    · cases hr
  · exact hcaller

end

/-! ## Steps and runs -/

theorem Covers.grow {stack : List Activation} (h : Covers x ⟨stack, heap, statics⟩)
    (hg : HeapGrows heap heap') (hh : HeapCovered x heap') :
    Covers x ⟨stack, heap', statics⟩ :=
  ⟨fun act hm => (h.stack act hm).mono hg, hh, fun f => (h.statics f).mono hg⟩

/-- The activation on top of the stack is replaced. -/
theorem Covers.replace {act' : Activation} (h : Covers x ⟨act :: rest, heap, statics⟩)
    (ha : act'.Covered x heap) : Covers x ⟨act' :: rest, heap, statics⟩ := by
  refine ⟨fun k hm => ?_, h.heap, h.statics⟩
  rcases List.mem_cons.1 hm with rfl | hm
  · exact ha
  · exact h.stack k (List.mem_cons_of_mem _ hm)

theorem Covers.pop (h : Covers x ⟨act :: rest, heap, statics⟩) : Covers x ⟨rest, heap, statics⟩ :=
  ⟨fun k hm => h.stack k (List.mem_cons_of_mem _ hm), h.heap, h.statics⟩

section
variable (hx : Closed a entry x) (hp : a.program.Valid) (hsite : a.heap = .bySite)
include hx hp hsite

/-- Closed findings cover what a step makes of a configuration that they cover. -/
theorem Step.covers (h : Covers x c) (hs : Step a.program c c') : Covers x c' := by
  cases hs with
  | assign hs he =>
    have hact := h.stack _ List.mem_cons_self
    exact h.replace (hact.set (held_eval hx hp hact h.heap h.statics hs he))
  | @new act rest heap statics s v t hs =>
    have hg := heapGrows_append heap { obj := ⟨s, t⟩ }
    have hgrown := h.grow hg (h.heap.append ⟨s, t⟩)
    have hact := h.stack _ List.mem_cons_self
    have hnew : x.points (.var v) ⟨s, t⟩ := by
      have := hx.new hact.method hs
      rwa [hsite] at this
    refine hgrown.replace ((hact.mono hg).set fun addr ha => ?_)
    cases ha
    exact ⟨{ obj := ⟨s, t⟩ }, List.getElem?_concat_length, hnew⟩
  | @storeStatic act rest heap statics s f v hs =>
    have hact := h.stack _ List.mem_cons_self
    refine ⟨h.stack, h.heap, fun g => ?_⟩
    dsimp only
    rw [Function.update_apply]
    split
    · rename_i hg
      exact hg ▸ (hact.locals v).along (hx.storeStatic hact.method hs)
    · exact h.statics g
  | @storeField act rest heap statics s base f v addr hs hb =>
    have hact := h.stack _ List.mem_cons_self
    have hi := hp.wellFormed.instrAt? hs
    refine h.grow (heapGrows_modify heap addr fun _ => rfl)
      (h.heap.modify (fun _ => rfl) fun cell hc => ⟨fun g => ?_, h.heap.elements hc⟩)
    dsimp only
    rw [Function.update_apply]
    split
    · rename_i hg
      rw [hg]
      exact (hact.locals v).along (hx.storeField ((hact.locals base).cell hb hc)
        (hp.mem_usesAs.2 ⟨_, hi, rfl⟩) hi)
    · exact h.heap.fields hc g
  | @storeElement act rest heap statics s access v addr i hs hb _ =>
    have hact := h.stack _ List.mem_cons_self
    have hi := hp.wellFormed.instrAt? hs
    refine h.grow (heapGrows_modify heap addr fun _ => rfl)
      (h.heap.modify (fun _ => rfl) fun cell hc => ⟨h.heap.fields hc, fun j => ?_⟩)
    dsimp only
    rw [Function.update_apply]
    split
    · exact (hact.locals v).along (hx.storeElement ((hact.locals access.base).cell hb hc)
        (hp.mem_usesAs.2 ⟨_, hi, rfl⟩) hi)
    · exact h.heap.elements hc j
  | call hs ht hb =>
    have hact := h.stack _ List.mem_cons_self
    obtain ⟨hc, hr⟩ := target_covered hx hp hact hs ht
    refine ⟨fun k hm => ?_, h.heap, h.statics⟩
    rcases List.mem_cons.1 hm with rfl | hm
    · refine ⟨hx.callee hc, fun e he => ?_,
        held_bindLocals hx hp hact hs hc hb fun this => hr _ this hb⟩
      cases he
      exact ⟨hc, rfl⟩
    · exact h.stack k hm
  | ret hs =>
    have hact := h.stack _ List.mem_cons_self
    exact h.pop.replace (hact.receive hx (h.pop.stack _ List.mem_cons_self) hs)
  | leave => exact h.pop

theorem Run.covers (h : Covers x c) (hr : Run a.program c c') : Covers x c' := by
  induction hr with
  | refl => exact h
  | tail _ hs ih => exact hs.covers hx hp hsite ih

end

theorem Config.Initial.covers (hx : Closed a entry x) (h : c.Initial entry) : Covers x c := by
  obtain ⟨stack, heap, statics⟩ := c
  obtain ⟨⟨locals, rfl, hl⟩, rfl, hs⟩ := h
  refine ⟨fun act hm => ?_, ⟨fun hc => ?_, fun hc => ?_⟩, fun f addr ha => absurd ha (hs f addr)⟩
  · obtain rfl := List.mem_singleton.1 hm
    exact ⟨hx.entry, fun _ he => (nomatch he), fun v addr ha => absurd ha (hl v addr)⟩
  · simp at hc
  · simp at hc

theorem Step.heapGrows (hs : Step p c c') : HeapGrows c.heap c'.heap := by
  cases hs with
  | new _ => exact heapGrows_append _ _
  | storeField _ _ => exact heapGrows_modify _ _ fun _ => rfl
  | storeElement _ _ _ => exact heapGrows_modify _ _ fun _ => rfl
  | _ => exact .refl _

/-- The objects of a heap stay what they are as long as a run lasts. -/
theorem Run.heapGrows (hr : Run p c c') : HeapGrows c.heap c'.heap := by
  induction hr with
  | refl => exact .refl _
  | tail _ hs ih => exact ih.trans hs.heapGrows

/-! ## The analysis -/

theorem Result.mayAlias_iff {r : Result} {v w : VarId} :
    r.mayAlias v w = true ↔ ∃ o, o ∈ r.points (.var v) ∧ o ∈ r.points (.var w) := by
  rw [mayAlias, PointsToSet.intersects, Bool.not_eq_true', ← Bool.not_eq_true,
    ExtTreeSet.isEmpty_iff]
  constructor
  · intro hne
    by_contra hno
    refine hne (ExtTreeSet.ext_mem fun o => ⟨fun ho => ?_, fun ho => by simp at ho⟩)
    exact absurd ⟨o, ExtTreeSet.mem_inter_iff.1 ho⟩ hno
  · rintro ⟨o, ho⟩ he
    have := ExtTreeSet.mem_inter_iff.2 ho
    rw [he] at this
    simp at this

/-- The analysis of a method of a built program covers every run of it: every activated method is
reachable, every executed call is an edge, and pointers may point to all that they hold. Two
variables that hold one object, be it at different times, may alias. -/
theorem analyze_covers {d : Declarations} (hd : d.Built) (hb : d.build = .ok p)
    (he : p.HasMethod entry) (order : Pointer Obj → List (Pointer Obj) → List (Pointer Obj))
    (ho : ∀ q l, (order q l).Perm l) :
    ∃ r, analyze { program := p, order } entry = some r ∧
      ∀ start, start.Initial entry → ∀ c, Run p start c → Covers r.findings c ∧
        ∀ c', Run p c c' → ∀ act ∈ c.stack, ∀ act' ∈ c'.stack, ∀ v w addr,
          act.locals v = .ref addr → act'.locals w = .ref addr → r.mayAlias v w = true := by
  have hp := Program.valid_of_build hd hb
  obtain ⟨r, hr⟩ := exists_analyze (a := { program := p, order }) hp he ho
  have hx := closed_of_analyze ho hr
  refine ⟨r, hr, fun start hstart c hc => ?_⟩
  have hcov := Run.covers hx hp rfl (hstart.covers hx) hc
  refine ⟨hcov, fun c' hc' act hact act' hact' v w addr hv hw => ?_⟩
  have hcov' := Run.covers hx hp rfl hcov hc'
  obtain ⟨cell, hcell, hpv⟩ := (hcov.stack act hact).locals v addr hv
  obtain ⟨cell', hcell', hobj⟩ := hc'.heapGrows addr cell hcell
  exact Result.mayAlias_iff.2
    ⟨cell.obj, hpv, hobj ▸ ((hcov'.stack act' hact').locals w).cell hw hcell'⟩

/-- The program

    0: x = new B
    1: x.f = x
    2: y = x.f
    3: z = y.self()

where `B` extends `A`, and `self` of both classes returns `this`. -/
theorem built_self : ∃ (d : Declarations) (p : Program) (b : Body), d.Built ∧ d.build = .ok p ∧
    p.HasMethod ⟨0⟩ ∧
    (⟨⟨0⟩, 0⟩, .assign ⟨2⟩ (.new (.cls ⟨1⟩))) ∈ p.stmtsOf ⟨0⟩ ∧
    (⟨⟨0⟩, 1⟩, .storeField (.object ⟨2⟩ ⟨0⟩) ⟨2⟩) ∈ p.stmtsOf ⟨0⟩ ∧
    (⟨⟨0⟩, 2⟩, .assign ⟨3⟩ (.field (.object ⟨2⟩ ⟨0⟩))) ∈ p.stmtsOf ⟨0⟩ ∧
    (⟨⟨0⟩, 3⟩, .invoke (some ⟨4⟩) ⟨.virtual, ⟨⟨0⟩, ⟨"A self()"⟩⟩, some ⟨3⟩, []⟩) ∈ p.stmtsOf ⟨0⟩ ∧
    (⟨⟨2⟩, 0⟩, .ret (some ⟨1⟩)) ∈ p.stmtsOf ⟨2⟩ ∧
    p.dispatch? ⟨1⟩ ⟨"A self()"⟩ = some ⟨2⟩ ∧ p.body? ⟨2⟩ = some b ∧ b.this = some ⟨1⟩ := by
  have h := Declarations.Built.empty.addClass "A" none [] (by simp) (by simp)
    (Declarations.addClass_first "A")
  replace h := h.addClass "B" (some ⟨0⟩) [] (by decide) (by simp)
    (Declarations.addClass_fresh _ _ (by simp))
  replace h := h.addField ⟨0⟩ "f" (.cls ⟨0⟩) false (by decide) (by decide)
  replace h := h.addMethod ⟨0⟩ "main" [] .void true (by decide) (by decide) rfl
  replace h := h.addMethod ⟨0⟩ "self" [] (.cls ⟨0⟩) false (by decide) (by decide) rfl
  replace h := h.addMethod ⟨1⟩ "self" [] (.cls ⟨0⟩) false (by decide) (by decide) rfl
  replace h := h.addVar ⟨0⟩ "x" (.cls ⟨0⟩) (by decide) (by decide) rfl
  replace h := h.addVar ⟨0⟩ "y" (.cls ⟨0⟩) (by decide) (by decide) rfl
  replace h := h.addVar ⟨0⟩ "z" (.cls ⟨0⟩) (by decide) (by decide) rfl
  replace h := h.addStmt ⟨0⟩ (.assign ⟨2⟩ (.new (.cls ⟨1⟩))) (by decide) (by decide) rfl
  replace h := h.addStmt ⟨0⟩ (.storeField (.object ⟨2⟩ ⟨0⟩) ⟨2⟩) (by decide) (by decide) rfl
  replace h := h.addStmt ⟨0⟩ (.assign ⟨3⟩ (.field (.object ⟨2⟩ ⟨0⟩))) (by decide) (by decide) rfl
  replace h := h.addStmt ⟨0⟩ (.invoke (some ⟨4⟩) ⟨.virtual, ⟨⟨0⟩, ⟨"A self()"⟩⟩, some ⟨3⟩, []⟩)
    (by decide) (by decide) rfl
  replace h := h.addStmt ⟨1⟩ (.ret (some ⟨0⟩)) (by decide) (by decide) rfl
  replace h := h.addStmt ⟨2⟩ (.ret (some ⟨1⟩)) (by decide) (by decide) rfl
  exact ⟨_, _, _, h, rfl, show Declarations.HasMethod _ ⟨0⟩ by decide, by decide, by decide,
    by decide, by decide, by decide, by decide +kernel, rfl, rfl⟩

/-- In a run of that program the new object gets into its own field and from there to the call,
which activates the method of `B`. The analysis covers all this, and as `this` in the call and
later `z` hold the object, it says that they may alias. -/
theorem analyze_covers_self : ∃ (d : Declarations) (p : Program) (r : Result), d.Built ∧
    d.build = .ok p ∧ analyze { program := p } ⟨0⟩ = some r ∧ ∃ start c c',
      start.Initial ⟨0⟩ ∧ Run p start c ∧ Run p c c' ∧
      c.stack.map Activation.method = [⟨2⟩, ⟨0⟩] ∧ c'.stack.map Activation.method = [⟨0⟩] ∧
      Covers r.findings c ∧ ⟨2⟩ ∈ r.calls.reachable ∧
      ⟨.virtual, ⟨⟨0⟩, 3⟩, ⟨2⟩⟩ ∈ r.calls.edges ∧
      ⟨⟨⟨0⟩, 0⟩, .cls ⟨1⟩⟩ ∈ r.points (.field ⟨⟨⟨0⟩, 0⟩, .cls ⟨1⟩⟩ ⟨0⟩) ∧
      r.mayAlias ⟨1⟩ ⟨4⟩ = true := by
  obtain ⟨d, p, b, hd, hb, he, hnew, hstore, hload, hcall, hret, hdispatch, hbody, hthis⟩ :=
    built_self
  obtain ⟨r, hr, hcov⟩ := analyze_covers hd hb he (fun _ => id) fun _ l => .refl l
  let main : Activation := { method := ⟨0⟩, locals := fun _ => .null }
  have hstart : Config.Initial ⟨0⟩ ⟨[main], [], fun _ => .null⟩ :=
    ⟨⟨_, rfl, fun _ _ h => nomatch h⟩, rfl, fun _ _ h => nomatch h⟩
  have hcalled : Run p ⟨[main], [], fun _ => .null⟩ _ :=
    (((Relation.ReflTransGen.single (.new hnew)).tail (.storeField hstore rfl)).tail
      (.assign hload (.field rfl rfl))).tail
      (.call hcall (.dynamic (.inl rfl) rfl rfl rfl rfl hdispatch) hbody)
  have hreceiver : ∀ args, bindLocals b (.ref 0) args ⟨1⟩ = .ref 0 := fun _ => if_pos hthis
  have hreturned : ∀ (caller : Activation) value,
      caller.receive p (some ⟨.virtual, ⟨⟨0⟩, 3⟩, ⟨2⟩⟩) value = caller.set ⟨4⟩ value := by
    intro caller value
    rw [Activation.receive, Option.bind_some, Activation.resultOf?,
      (Program.valid_of_build hd hb).wellFormed.instrAt? hcall]
  obtain ⟨hcovers, halias⟩ := hcov _ hstart _ hcalled
  have hself := hcovers.stack _ List.mem_cons_self
  have hfield := (@HeapCovered.fields _ _ hcovers.heap 0 _ rfl ⟨0⟩).cell rfl rfl
  refine ⟨d, p, r, hd, hb, hr, _, _, _, hstart, hcalled, .single (.ret hret), rfl,
    congrArg (fun act : Activation => [act.method]) (hreturned _ _), hcovers, hself.method,
    (hself.call _ rfl).1, hfield, halias _ (.single (.ret hret)) _ List.mem_cons_self _
      List.mem_cons_self ⟨1⟩ ⟨4⟩ 0 (hreceiver _) ?_⟩
  -- `z` holds what `this` held
  refine (congrArg (Activation.locals · ⟨4⟩) (hreturned _ _)).trans ?_
  exact hreceiver _

end ObjectFlow.PointsTo
