import ObjectFlow.Proofs.PointsTo.Soundness
import ObjectFlow.Proofs.Program.Reordering

/-!
# The points-to analysis ignores the order of statements

Closed findings of reordered declarations, read with the old names of their sites, are closed
findings of the old ones (`Closed.pull`). As an analysis finds the least closed findings, those of
two programs that differ in the order of their statements agree along the reordering
(`findings_le_pull`), although the two runs meet methods, objects and flows in different orders.
-/

namespace ObjectFlow

open PointsTo

/-! ## New names -/

namespace Reordering

variable (π : Reordering)

/-- The object of a site and that of its new place. -/
def obj : Obj ≃ Obj where
  toFun o := ⟨π.site o.site, o.type⟩
  invFun o := ⟨π.site.symm o.site, o.type⟩
  left_inv o := by simp
  right_inv o := by simp

/-- Fields and elements belong to the renamed objects. -/
def pointer : Pointer Obj ≃ Pointer Obj where
  toFun
    | .var v => .var v
    | .static f => .static f
    | .field o f => .field (π.obj o) f
    | .element o => .element (π.obj o)
  invFun
    | .var v => .var v
    | .static f => .static f
    | .field o f => .field (π.obj.symm o) f
    | .element o => .element (π.obj.symm o)
  left_inv q := by cases q <;> simp
  right_inv q := by cases q <;> simp

/-- The call from the new place. -/
def call : CallEdge ≃ CallEdge where
  toFun e := ⟨e.kind, π.site e.site, e.callee⟩
  invFun e := ⟨e.kind, π.site.symm e.site, e.callee⟩
  left_inv e := by simp
  right_inv e := by simp

theorem obj_symm : π.symm.obj = π.obj.symm := rfl

theorem pointer_symm : π.symm.pointer = π.pointer.symm := rfl

theorem call_symm : π.symm.call = π.call.symm := rfl

end Reordering

namespace PointsTo

open Std

/-- The findings with the old names of sites. -/
def Findings.pull (x : Findings) (π : Reordering) : Findings where
  reaches := x.reaches
  calls e := x.calls (π.call e)
  points q o := x.points (π.pointer q) (π.obj o)

theorem Findings.pull_mono {x y : Findings} (h : x ≤ y) (π : Reordering) : x.pull π ≤ y.pull π :=
  ⟨h.1, fun e => h.2.1 (π.call e), fun q o => h.2.2 (π.pointer q) (π.obj o)⟩

/-- Giving sites their old names and then their new ones again changes nothing. -/
theorem Findings.pull_symm_pull (x : Findings) (π : Reordering) : (x.pull π.symm).pull π = x := by
  simp only [pull, π.call_symm, π.pointer_symm, π.obj_symm, Equiv.symm_apply_apply]

/-- What is closed after the reordering is closed before it, under the old names. -/
theorem Closed.pull {a a' : Setup} {π : Reordering} {entry : MethodId} {x : Findings}
    (h : a.program.Reordered a'.program.toDeclarations π) (hp : a.program.Valid)
    (hp' : a'.program.Valid) (hheap : ∀ s t, a'.heap (π.site s) t = π.obj (a.heap s t))
    (hx : Closed a' entry x) : Closed a entry (x.pull π) := by
  -- no statement that asks for anything is a jump
  have hstmt {m s i} (hs : (s, i) ∈ a.program.stmtsOf m) (hjump : i.targets = []) :
      (π.site s, i) ∈ a'.program.stmtsOf m :=
    h.mem_stmtsOf hp.wellFormed hp'.wellFormed hs hjump
  have huse {v use s} (hs : s ∈ a.program.usesAs v use) : π.site s ∈ a'.program.usesAs v use :=
    Program.mem_usesAs_of_reordered h hp hp' hs
  have hcallee {t call callee}
      (hc : a.program.calleeOn? (a.program.classOfType? t) call = some callee) :
      a'.program.calleeOn? (a'.program.classOfType? t) call = some callee := by
    rwa [Program.calleeOn?_eq_of_reordered h, h.classOfType?]
  exact {
    entry := hx.entry
    new {m s v type} hm hs := by
      have hnew := hx.new hm (hstmt hs rfl)
      rw [hheap] at hnew
      exact hnew
    copy hm hs _ ho := hx.copy hm (hstmt hs rfl) _ ho
    cast hm hs _ ho := hx.cast hm (hstmt hs rfl) _ ho
    loadStatic hm hs _ ho := hx.loadStatic hm (hstmt hs rfl) _ ho
    storeStatic hm hs _ ho := hx.storeStatic hm (hstmt hs rfl) _ ho
    staticCall hm hs hk hc := hx.staticCall hm (hstmt hs rfl) hk (by rwa [h.declaredMethod?])
    loadField hv hs hi _ ho := hx.loadField hv (huse hs) (h.instrAt? hi rfl) _ ho
    storeField hv hs hi _ ho := hx.storeField hv (huse hs) (h.instrAt? hi rfl) _ ho
    loadElement hv hs hi _ ho := hx.loadElement hv (huse hs) (h.instrAt? hi rfl) _ ho
    storeElement hv hs hi _ ho := hx.storeElement hv (huse hs) (h.instrAt? hi rfl) _ ho
    receiverCall hv hs hi hc := hx.receiverCall hv (huse hs) (h.instrAt? hi rfl) (hcallee hc)
    receiver hv hs hi hc hb ht := by
      obtain ⟨b', hb', hthis, -⟩ := h.body? hb
      exact hx.receiver hv (huse hs) (h.instrAt? hi rfl) (hcallee hc) hb' (hthis.trans ht)
    callee {e} he := hx.callee (e := π.call e) he
    argument he hi hb ha hparam _ ho := by
      obtain ⟨b', hb', -, hparams⟩ := h.body? hb
      exact hx.argument he (h.instrAt? hi rfl) hb' ha (hparams ▸ hparam) _ ho
    result he hi hb hv _ ho := by
      obtain ⟨b', hb', -⟩ := h.body? hb
      exact hx.result he (h.instrAt? hi rfl) hb'
        (h.mem_returnVars hp.wellFormed hp'.wellFormed hb hb' hv) _ ho }

/-- What an analysis finds before the reordering another finds after it, under the new names. -/
theorem findings_le_pull {a a' : Setup} {π : Reordering} {entry : MethodId} {r r' : Result}
    (h : a.program.Reordered a'.program.toDeclarations π) (hp : a.program.Valid)
    (hp' : a'.program.Valid) (hheap : ∀ s t, a'.heap (π.site s) t = π.obj (a.heap s t))
    (ho : ∀ q l, (a.order q l).Perm l) (ho' : ∀ q l, (a'.order q l).Perm l)
    (hr : analyze a entry = some r) (hr' : analyze a' entry = some r') :
    r.findings ≤ r'.findings.pull π :=
  le_of_analyze hp ho hr ((closed_of_analyze ho' hr').pull h hp hp' hheap)

/-- Two programs that differ in the order of their statements, and in where these jump, have the
same analysis, whatever orders the two runs serve successors in: the same methods are reachable, the
calls and the objects of all pointers are the same but for the names of sites, and the same
variables may alias. -/
theorem analysis_ignores_order {d d' : Declarations} {p p' : Program} {π : Reordering}
    {entry : MethodId} {order order' : Pointer Obj → List (Pointer Obj) → List (Pointer Obj)}
    (hd : d.Built) (hb : d.build = .ok p) (hd' : d'.Built) (hb' : d'.build = .ok p')
    (h : d.Reordered d' π) (he : d.HasMethod entry) (ho : ∀ q l, (order q l).Perm l)
    (ho' : ∀ q l, (order' q l).Perm l) :
    ∃ r r', analyze { program := p, order } entry = some r ∧
      analyze { program := p', order := order' } entry = some r' ∧
      (∀ m, m ∈ r'.calls.reachable ↔ m ∈ r.calls.reachable) ∧
      (∀ e, π.call e ∈ r'.calls.edges ↔ e ∈ r.calls.edges) ∧
      (∀ q o, π.obj o ∈ r'.points (π.pointer q) ↔ o ∈ r.points q) ∧
      ∀ v w, r'.mayAlias v w = r.mayAlias v w := by
  have hp := Program.valid_of_build hd hb
  have hp' := Program.valid_of_build hd' hb'
  obtain ⟨-, -, rfl⟩ := Program.build_ok hb
  obtain ⟨-, -, rfl⟩ := Program.build_ok hb'
  obtain ⟨r, hr⟩ := exists_analyze (a := { program := _, order }) hp he ho
  obtain ⟨r', hr'⟩ :=
    exists_analyze (a := { program := _, order := order' }) hp' (h.hasMethod he) ho'
  have hforth := findings_le_pull h hp hp' (fun _ _ => rfl) ho ho' hr hr'
  have hback : r'.findings.pull π ≤ r.findings := by
    have hle := findings_le_pull h.symm hp' hp (fun _ _ => rfl) ho' ho hr' hr
    simpa only [Findings.pull_symm_pull] using Findings.pull_mono hle π
  have hpoints (q : Pointer Obj) (o : Obj) :
      π.obj o ∈ r'.points (π.pointer q) ↔ o ∈ r.points q := ⟨hback.2.2 q o, hforth.2.2 q o⟩
  refine ⟨r, r', hr, hr', fun m => ⟨hback.1 m, hforth.1 m⟩,
    fun e => ⟨hback.2.1 e, hforth.2.1 e⟩, hpoints, fun v w => Bool.eq_iff_iff.2 ?_⟩
  simp only [Result.mayAlias_iff]
  constructor
  · rintro ⟨o', hv, hw⟩
    obtain ⟨o, rfl⟩ := π.obj.surjective o'
    exact ⟨o, (hpoints (.var v) o).1 hv, (hpoints (.var w) o).1 hw⟩
  · rintro ⟨o, hv, hw⟩
    exact ⟨π.obj o, (hpoints (.var v) o).2 hv, (hpoints (.var w) o).2 hw⟩

/-- The first and the last of the three statements of a method change places:

    0: x = new A        0: y = x.self()
    1: goto 2           1: goto 0
    2: y = x.self()     2: x = new A
-/
def exchange : Reordering := ⟨fun m => if m = ⟨0⟩ then Equiv.swap 0 2 else Equiv.refl ℕ⟩

theorem built_exchange : ∃ (d d' : Declarations) (p p' : Program), d.Built ∧ d.build = .ok p ∧
    d'.Built ∧ d'.build = .ok p' ∧ d.HasMethod ⟨0⟩ ∧ d.Reordered d' exchange ∧
    (analyze { program := p } ⟨0⟩).map (·.mayAlias ⟨1⟩ ⟨2⟩) = some true := by
  have h := Declarations.Built.empty.addClass "A" none [] (by simp) (by simp)
    (Declarations.addClass_first "A")
  replace h := h.addMethod ⟨0⟩ "main" [] .void true (by decide) (by decide) rfl
  replace h := h.addMethod ⟨0⟩ "self" [] (.cls ⟨0⟩) false (by decide) (by decide) rfl
  replace h := h.addVar ⟨0⟩ "x" (.cls ⟨0⟩) (by decide) (by decide) rfl
  replace h := h.addVar ⟨0⟩ "y" (.cls ⟨0⟩) (by decide) (by decide) rfl
  replace h := h.addStmt ⟨1⟩ (.ret (some ⟨0⟩)) (by decide) (by decide) rfl
  have h₁ := h.addStmt ⟨0⟩ (.assign ⟨1⟩ (.new (.cls ⟨0⟩))) (by decide) (by decide) rfl
  replace h₁ := h₁.addStmt ⟨0⟩ (.goto 2) (by decide) (by decide) rfl
  replace h₁ := h₁.addStmt ⟨0⟩
    (.invoke (some ⟨2⟩) ⟨.virtual, ⟨⟨0⟩, ⟨"A self()"⟩⟩, some ⟨1⟩, []⟩) (by decide) (by decide) rfl
  have h₂ := h.addStmt ⟨0⟩
    (.invoke (some ⟨2⟩) ⟨.virtual, ⟨⟨0⟩, ⟨"A self()"⟩⟩, some ⟨1⟩, []⟩) (by decide) (by decide) rfl
  replace h₂ := h₂.addStmt ⟨0⟩ (.goto 0) (by decide) (by decide) rfl
  replace h₂ := h₂.addStmt ⟨0⟩ (.assign ⟨1⟩ (.new (.cls ⟨0⟩))) (by decide) (by decide) rfl
  refine ⟨_, _, _, _, h₁, rfl, h₂, rfl, by decide,
    ⟨rfl, rfl, rfl, rfl, by decide +kernel, fun s => ?_⟩, by decide +kernel⟩
  obtain ⟨⟨_ | _ | m⟩, i⟩ := s
  · obtain _ | _ | _ | i := i
    · rfl
    · rfl
    · rfl
    -- beyond the statements of the body nothing moves
    · have hfix : Equiv.swap 0 2 (i + 3) = i + 3 :=
        Equiv.swap_apply_of_ne_of_ne (by omega) (by omega)
      have hsite : exchange.site ⟨⟨0⟩, i + 3⟩ = ⟨⟨0⟩, i + 3⟩ := congrArg (Site.mk ⟨0⟩) hfix
      rw [hsite]
      rfl
  · rfl
  · rfl

/-- Whether the allocation or the call comes first, the call is found, and its result may be the new
object. -/
theorem analysis_ignores_order_exchange : ∃ (d d' : Declarations) (p p' : Program), d.Built ∧
    d.build = .ok p ∧ d'.Built ∧ d'.build = .ok p' ∧ d.Reordered d' exchange ∧
    ∃ r r', analyze { program := p } ⟨0⟩ = some r ∧
      analyze { program := p', order := fun _ l => l.reverse } ⟨0⟩ = some r' ∧
      (∀ m, m ∈ r'.calls.reachable ↔ m ∈ r.calls.reachable) ∧
      (∀ e, exchange.call e ∈ r'.calls.edges ↔ e ∈ r.calls.edges) ∧
      (∀ q o, exchange.obj o ∈ r'.points (exchange.pointer q) ↔ o ∈ r.points q) ∧
      r.mayAlias ⟨1⟩ ⟨2⟩ = true ∧ r'.mayAlias ⟨1⟩ ⟨2⟩ = true := by
  obtain ⟨d, d', p, p', hd, hb, hd', hb', hm, h, halias⟩ := built_exchange
  obtain ⟨r, r', hr, hr', hreach, hcalls, hpoints, hmay⟩ := analysis_ignores_order hd hb hd' hb' h
    hm (fun _ _ => .rfl) fun _ l => l.reverse_perm
  rw [show analyze { program := p } ⟨0⟩ = some r from hr, Option.map_some, Option.some.injEq]
    at halias
  exact ⟨d, d', p, p', hd, hb, hd', hb', h, r, r', hr, hr', hreach, hcalls, hpoints, halias,
    (hmay _ _).trans halias⟩

end PointsTo

end ObjectFlow
