import Mathlib.Logic.Equiv.Defs
import ObjectFlow.Proofs.Program.Sites

/-!
# Reordered bodies

A `Reordering` gives the statements of each method new positions. Declarations are `Reordered` along
it if they differ only in the order of the statements and in where these jump. Then look-up and
dispatch agree, and a statement that does not jump is found at its new site (`Reordered.instrAt?`),
in the body of its method (`Reordered.mem_stmtsOf`) and in the index of bases
(`Reordered.mem_usesAs`).
-/

namespace ObjectFlow

/-- New positions for the statements of each method. -/
structure Reordering where
  perm : MethodId → Equiv.Perm ℕ

namespace Reordering

variable (π : Reordering)

/-- The way back. -/
def symm : Reordering := ⟨fun m => (π.perm m).symm⟩

/-- Where the statement of a site stands afterwards. -/
def site : Site ≃ Site where
  toFun s := ⟨s.method, π.perm s.method s.index⟩
  invFun s := ⟨s.method, (π.perm s.method).symm s.index⟩
  left_inv s := by simp
  right_inv s := by simp

end Reordering

/-- An instruction without its targets. -/
def Instr.withoutJumps : Instr → Instr
  | .branch cond _ => .branch cond 0
  | .switch v cases _ => .switch v (cases.map fun c => (c.1, 0)) 0
  | .goto _ => .goto 0
  | i => i

/-- A method without its statements. -/
def MethodDecl.withoutStmts (decl : MethodDecl) : MethodDecl :=
  { decl with body := decl.body.map fun b => { b with stmts := [] } }

/-- An instruction that does not jump is itself without its targets. -/
theorem Instr.eq_of_withoutJumps_eq {i i' : Instr} (hi : i.targets = [])
    (h : i'.withoutJumps = i.withoutJumps) : i' = i := by
  cases i <;> cases i' <;> simp_all [Instr.withoutJumps, Instr.targets]

theorem Instr.targets_of_baseUse? {i : Instr} {v : VarId} {use : BaseUse}
    (h : i.baseUse? = some (v, use)) : i.targets = [] := by
  cases i <;> simp_all [Instr.baseUse?, Instr.targets]

namespace Declarations

/-- The second declarations differ from the first in the order of the statements of each body and in
where these jump. -/
structure Reordered (d d' : Declarations) (π : Reordering) : Prop where
  classes : d'.classes = d.classes
  fields : d'.fields = d.fields
  vars : d'.vars = d.vars
  main : d'.main = d.main
  methods : d'.methods.map MethodDecl.withoutStmts = d.methods.map MethodDecl.withoutStmts
  stmts (s : Site) :
    (d'.instrAt? (π.site s)).map Instr.withoutJumps = (d.instrAt? s).map Instr.withoutJumps

namespace Reordered

variable {d d' : Declarations} {π : Reordering} {m : MethodId} {b b' : Body} {s : Site} {i : Instr}
  {v : VarId}

theorem symm (h : d.Reordered d' π) : d'.Reordered d π.symm where
  classes := h.classes.symm
  fields := h.fields.symm
  vars := h.vars.symm
  main := h.main.symm
  methods := h.methods.symm
  stmts s := by
    have hs := h.stmts (π.site.symm s)
    rw [Equiv.apply_symm_apply] at hs
    exact hs.symm

/-! ## Statements -/

/-- A statement that does not jump is found at its new site. -/
theorem instrAt? (h : d.Reordered d' π) (hi : d.instrAt? s = some i) (hjump : i.targets = []) :
    d'.instrAt? (π.site s) = some i := by
  have hs := h.stmts s
  rw [hi, Option.map_some, Option.map_eq_some_iff] at hs
  obtain ⟨i', hi', heq⟩ := hs
  rw [hi', Instr.eq_of_withoutJumps_eq hjump heq]

theorem mem_stmtsOf (h : d.Reordered d' π) (hd : d.WellFormed) (hd' : d'.WellFormed)
    (hs : (s, i) ∈ d.stmtsOf m) (hjump : i.targets = []) : (π.site s, i) ∈ d'.stmtsOf m := by
  obtain rfl := site_method hs
  exact hd'.instrAt?_iff.1 (h.instrAt? (hd.instrAt? hs) hjump)

/-! ## Methods and classes -/

theorem method? (h : d.Reordered d' π) (m : MethodId) :
    (d'.method? m).map MethodDecl.withoutStmts = (d.method? m).map MethodDecl.withoutStmts := by
  simp only [Declarations.method?, ← Array.getElem?_map, h.methods]

theorem hasMethod (h : d.Reordered d' π) (hm : d.HasMethod m) : d'.HasMethod m := by
  have hsize := congrArg Array.size h.methods
  rw [Array.size_map, Array.size_map] at hsize
  rwa [HasMethod, hsize]

/-- Bodies stay but for their statements. -/
theorem body? (h : d.Reordered d' π) (hb : d.body? m = some b) :
    ∃ b', d'.body? m = some b' ∧ b'.this = b.this ∧ b'.params = b.params := by
  obtain ⟨decl, hdecl, hbody⟩ := Option.bind_eq_some_iff.1 hb
  have hm := h.method? m
  rw [hdecl, Option.map_some, Option.map_eq_some_iff] at hm
  obtain ⟨decl', hdecl', heq⟩ := hm
  have hstmts := congrArg MethodDecl.body heq
  simp only [MethodDecl.withoutStmts, hbody, Option.map_some, Option.map_eq_some_iff] at hstmts
  obtain ⟨b', hbody', hb'⟩ := hstmts
  obtain ⟨hthis, hparams, -⟩ := Body.mk.inj hb'
  exact ⟨b', Option.bind_eq_some_iff.2 ⟨decl', hdecl', hbody'⟩, hthis, hparams⟩

theorem mem_returnVars (h : d.Reordered d' π) (hd : d.WellFormed) (hd' : d'.WellFormed)
    (hb : d.body? m = some b) (hb' : d'.body? m = some b') (hv : v ∈ b.returnVars) :
    v ∈ b'.returnVars := by
  obtain ⟨st, hst, hret⟩ := Program.mem_returnVars.1 hv
  have hs : (⟨m, st.index⟩, st.instr) ∈ d.stmtsOf m :=
    Declarations.mem_stmtsOf.2 ⟨b, st, hb, hst, rfl, rfl⟩
  rw [hret] at hs
  obtain ⟨b₁, st', hb₁, hst', -, hret'⟩ :=
    Declarations.mem_stmtsOf.1 (h.mem_stmtsOf hd hd' hs rfl)
  obtain rfl := Option.some.inj (hb'.symm.trans hb₁)
  exact Program.mem_returnVars.2 ⟨st', hst', hret'.symm⟩

theorem class? (h : d.Reordered d' π) : d'.class? = d.class? := by
  funext c
  rw [Declarations.class?, Declarations.class?, h.classes]

theorem declaredMethod? (h : d.Reordered d' π) : d'.declaredMethod? = d.declaredMethod? := by
  funext c s
  rw [Declarations.declaredMethod?, Declarations.declaredMethod?, h.class?]

theorem classOfType? (h : d.Reordered d' π) (t : Ty) : d'.classOfType? t = d.classOfType? t := by
  cases t <;> simp only [Declarations.classOfType?, Declarations.classNamed?, h.classes]

theorem superChain (h : d.Reordered d' π) (n : ℕ) (c : ClassId) :
    d'.superChain n c = d.superChain n c := by
  induction n generalizing c with
  | zero => rfl
  | succ n ih => simp only [Declarations.superChain, h.class?, ih]

theorem isAbstract (h : d.Reordered d' π) (m : MethodId) :
    (d'.method? m).any MethodDecl.isAbstract = (d.method? m).any MethodDecl.isAbstract := by
  have hany (o : Option MethodDecl) :
      (o.map MethodDecl.withoutStmts).any MethodDecl.isAbstract = o.any MethodDecl.isAbstract := by
    cases o <;> rfl
  rw [← hany, h.method?, hany]

theorem dispatch? (h : d.Reordered d' π) : d'.dispatch? = d.dispatch? := by
  funext c s
  simp only [Declarations.dispatch?, Declarations.concreteMethod?, h.classes, h.superChain,
    h.declaredMethod?, h.isAbstract]

end Reordered

end Declarations

namespace Program

variable {p p' : Program} {π : Reordering}

/-- Calls have the same targets. -/
theorem calleeOn?_eq_of_reordered (h : p.Reordered p'.toDeclarations π) (receiver : Option ClassId)
    (call : Invoke) : p'.calleeOn? receiver call = p.calleeOn? receiver call := by
  simp only [calleeOn?, h.declaredMethod?, h.dispatch?]

/-- A base is found in its role at the new site. -/
theorem mem_usesAs_of_reordered (h : p.Reordered p'.toDeclarations π) (hp : p.Valid)
    (hp' : p'.Valid) {v : VarId} {use : BaseUse} {s : Site} (hs : s ∈ p.usesAs v use) :
    π.site s ∈ p'.usesAs v use := by
  obtain ⟨i, hi, hu⟩ := hp.mem_usesAs.1 hs
  exact hp'.mem_usesAs.2 ⟨i, h.instrAt? hi (Instr.targets_of_baseUse? hu), hu⟩

end Program

end ObjectFlow
