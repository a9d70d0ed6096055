import ObjectFlow.Proofs.Program.Parents
import ObjectFlow.Proofs.Program.Steps
import ObjectFlow.Proofs.Program.Variables

/-!
# Consistency of builders

The tables of a builder refer to each other by id, and `Consistent b` says how they agree. They agree
after all calls with ids that earlier calls returned, in turns over several bodies and with failed
ones among them, and the next call changes nothing if it fails (`consistent_run`).
-/

namespace ObjectFlow.Builder

open Declarations

/-- The tables of a builder agree with each other. -/
structure Consistent (b : Builder) : Prop where
  /-- A class is found by its name and by no other. -/
  found : ∀ name c, (findClass name).on b = (.ok c, b) ↔
    ∃ x, b.class? c = some x ∧ x.name = name
  distinct : ∀ c k x y, b.class? c = some x → b.class? k = some y → x.name = y.name → c = k
  /-- Super class and interfaces have smaller ids, so no class stands above itself. -/
  ordered : ∀ c x k, b.class? c = some x → x.superclass = some k ∨ k ∈ x.interfaces →
    k.index < c.index
  acyclic : ∀ c, ¬Relation.TransGen (fun c k => k ∈ b.parentsOf c) c c
  /-- A class maps subsignatures to the methods that belong to it. -/
  declares : ∀ c s m, b.declaredMethod? c s = some m ↔
    ∃ x, b.method? m = some x ∧ x.cls = c ∧ x.subsignature = s
  /-- The body that lists a variable is that of its own method, and there is one. -/
  listed : ∀ m v, (∃ body, b.body? m = some body ∧ v ∈ body.vars) ↔
    ∃ y, b.var? v = some y ∧ y.method = m
  once : ∀ m body, b.body? m = some body → body.vars.Nodup
  /-- First come `this`, unless the method is static, and the parameters. -/
  headed : ∀ m x body, b.method? m = some x → x.body = some body →
    (body.this.isSome ↔ x.isStatic = false) ∧ body.this.toList ++ body.params <+: body.vars ∧
      (body.this.toList ++ body.params).map b.var? =
        (headVars x.cls x.paramTypes x.isStatic).map fun y => some ⟨y.1, y.2, m⟩
  indexed : ∀ m body i (s : Stmt), b.body? m = some body → body.stmts[i]? = some s → s.index = i

variable {b : Builder}

theorem hasClass_and_className {d : Declarations} {c : ClassId} {name : String} :
    d.HasClass c ∧ d.className c = name ↔ ∃ x, d.class? c = some x ∧ x.name = name := by
  constructor
  · rintro ⟨hc, rfl⟩
    exact ⟨_, Array.getElem?_eq_getElem hc, (className_eq hc).symm⟩
  · rintro ⟨x, hx, rfl⟩
    exact ⟨(Array.getElem?_eq_some_iff.1 hx).1, by rw [className, hx]; rfl⟩

theorem Sound.consistent (h : b.Sound) : b.Consistent where
  found name c := by
    rw [findClass_on, ← hasClass_and_className, ← h.table]
    cases b.classTable[name]? <;> simp
  distinct c k x y hx hy hname := by
    obtain ⟨hc, hcname⟩ := hasClass_and_className.2 ⟨x, hx, hname⟩
    obtain ⟨hk, hkname⟩ := hasClass_and_className.2 ⟨y, hy, rfl⟩
    exact h.built.calls.registered.distinct hc hk (hcname.trans hkname.symm)
  ordered c x k hx hk := h.built.parentsFirst c k (mem_parentsOf.2 ⟨x, hx, hk⟩)
  acyclic _ := h.built.acyclic
  declares c s m := by
    rw [h.built.calls.registered.declares]
    simp only [header?, Option.map_eq_some_iff]
    constructor
    · rintro ⟨_, ⟨x, hx, rfl⟩, hc, hs⟩
      exact ⟨x, hx, hc, hs⟩
    · rintro ⟨x, hx, hc, hs⟩
      exact ⟨_, ⟨x, hx, rfl⟩, hc, hs⟩
  listed m v := by
    have hlist : v ∈ b.bodyVars m ↔ ∃ body, b.body? m = some body ∧ v ∈ body.vars := by
      cases hb : b.body? m <;> simp [bodyVars, hb]
    rw [← hlist, h.built.bodyVars_eq, mem_varsOf, owner?, Option.map_eq_some_iff]
  once m body hb := by
    have hlist := h.built.bodyVars_eq m
    rw [bodyVars, hb, Option.map_some, Option.getD_some] at hlist
    exact hlist ▸ nodup_varsOf b.toDeclarations m
  headed m x body hx hb := by
    have hbody : b.body? m = some body := Option.bind_eq_some_iff.2 ⟨x, hx, hb⟩
    have hheader : b.header? m = some x.header := by rw [header?, hx]; rfl
    obtain ⟨hthis, hfirst, hdecl⟩ := h.built.headed m _ body hheader hbody
    exact ⟨by simp [hthis, MethodDecl.header], hfirst, hdecl⟩
  indexed m body i s := h.built.wellFormed.indexed

/-- After any calls with ids that were returned before, the tables agree, and a call that fails
changes none of them. -/
theorem consistent_run {calls : List Call} (h : Admissible ∅ calls) :
    (run calls).Consistent ∧ ∀ (call : Call) e b', call.perform.on (run calls) = (.error e, b') →
      call.failure? (run calls) = some e ∧ b' = run calls :=
  ⟨(sound_run h).consistent, fun _ _ _ => perform_eq_error_iff.1⟩

/-- Two bodies are filled in turns, between calls that declare a class and a method twice or look for
the body of an abstract method. -/
theorem consistent_run_interleaved : ∃ calls, Admissible ∅ calls ∧ (run calls).Consistent ∧
    (findClass "A").on (run calls) = (.ok ⟨1⟩, run calls) ∧
    ((run calls).body? ⟨0⟩).map Body.vars = some [⟨0⟩, ⟨1⟩, ⟨2⟩, ⟨4⟩, ⟨6⟩] ∧
    ((run calls).body? ⟨1⟩).map Body.vars = some [⟨3⟩, ⟨5⟩] ∧
    (Call.body ⟨2⟩).perform.on (run calls) =
      (.error (.missingBody "<I: void f()>"), run calls) := by
  let calls : List Call := [
    .addInterface "I" [], .addClass "A" none [⟨0⟩], .addClass "A" none [],
    .addMethod ⟨1⟩ "f" [.cls ⟨0⟩, .int] (.cls ⟨1⟩) false,
    .addMethod ⟨1⟩ "g" [.array (.cls ⟨1⟩)] .void true, .addAbstractMethod ⟨0⟩ "f" [] .void,
    .addVar ⟨0⟩ "x" (.cls ⟨1⟩), .addVar ⟨1⟩ "y" .int, .addVar ⟨2⟩ "x" .int,
    .addMethod ⟨1⟩ "f" [.cls ⟨0⟩, .int] (.cls ⟨1⟩) true, .addVar ⟨0⟩ "z" .int,
    .addStmt ⟨0⟩ (.assign ⟨4⟩ (.new (.cls ⟨1⟩))), .addStmt ⟨1⟩ (.ret none), .addStmt ⟨2⟩ .nop,
    .addStmt ⟨0⟩ (.ret (some ⟨4⟩))]
  have hcalls : Admissible ∅ calls := by decide +kernel
  obtain ⟨hconsistent, -⟩ := consistent_run hcalls
  refine ⟨calls, hcalls, hconsistent, ?_, by decide +kernel, by decide +kernel, ?_⟩
  · rw [hconsistent.found, ← hasClass_and_className]
    decide +kernel
  · have hbody : (Call.body ⟨2⟩).failure? (run calls) = some (.missingBody "<I: void f()>") := by
      decide +kernel
    rw [perform_on, hbody]

end ObjectFlow.Builder
