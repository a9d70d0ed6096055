import ObjectFlow.Proofs.CallGraph.PossibleCalls
import ObjectFlow.Proofs.Program.Hierarchy
import ObjectFlow.Proofs.Program.Steps

/-!
# What the class hierarchy resolves calls to

A virtual or interface call may reach a method if some class below the declared one inherits it
(`Valid.mem_resolve_iff`). Calls that dispatch never reach an abstract method
(`Valid.isAbstract_of_calleeOn?`). `hierarchy_resolves` puts this together with what the two walks
through the hierarchy find.
-/

namespace ObjectFlow.Program

open Relation (ReflTransGen)

variable {p : Program} {m : MethodId} {site : Site} {call : Invoke}

/-- The class that a call declares is one of the program. -/
theorem Valid.hasClass_target (hp : p.Valid) (hc : p.callAt? site = some call) :
    p.HasClass call.target.cls := by
  obtain ⟨st, hst, hinvoke⟩ := Option.bind_eq_some_iff.1 hc
  have hi : p.instrAt? site = some st.instr := Option.map_eq_some_iff.2 ⟨st, hst, rfl⟩
  have hnames := hp.wellFormed.names (hp.wellFormed.instrAt?_iff.1 hi)
  refine hnames.cls _ ?_
  cases hinstr : st.instr with
  | invoke result call' =>
    rw [hinstr] at hinvoke
    obtain rfl : call' = call := Option.some.inj hinvoke
    rfl
  | _ => rw [hinstr] at hinvoke; cases hinvoke

/-- A virtual or interface call may reach what the subtypes of the declared class inherit. -/
theorem Valid.mem_resolve_iff (hp : p.Valid) (hd : p.Built) (hc : p.callAt? site = some call)
    (hkind : call.kind = .virtual ∨ call.kind = .interface) :
    m ∈ p.resolve site ↔ ∃ k, ReflTransGen p.DirectlyBelow call.target.cls k ∧
      p.Inherits k call.target.subsignature m := by
  have hcallee : ∀ k, p.calleeOn? (some k) call = p.dispatch? k call.target.subsignature := by
    intro k
    rcases hkind with hk | hk <;> simp [Program.calleeOn?, hk]
  have hcls := hp.hasClass_target hc
  have hstatic : ¬(call.kind = .static ∨ call.kind = .special) := by
    rcases hkind with hk | hk <;> simp [hk]
  simp only [mem_resolve, hc, Option.some.injEq, exists_eq_left', mem_targets, hstatic, false_and,
    hkind, true_and, false_or, hcallee, hp.mem_subtypes hd hcls]
  refine exists_congr fun k => and_congr_right fun hk => ?_
  have hk' := Declarations.mem_classIds.1 ((hp.encloses_classIds hd hcls).mem
    ((hp.directlyBelow_eq hd).symm ▸ hk))
  exact hd.dispatch?_eq_some_iff hk'

/-- Only a static call may have an abstract target. -/
theorem Valid.isAbstract_of_calleeOn? (hp : p.Valid) {receiver : Option ClassId}
    (hkind : call.kind ≠ .static) (hm : p.calleeOn? receiver call = some m) :
    ∃ x, p.method? m = some x ∧ x.isAbstract = false := by
  unfold Program.calleeOn? at hm
  split at hm
  · contradiction
  · exact hp.wellFormed.isAbstract_of_dispatch? hm
  all_goals
    obtain ⟨k, -, hk⟩ := Option.bind_eq_some_iff.1 hm
    exact hp.wellFormed.isAbstract_of_dispatch? hk

/-- The search below a class ends with the class, listed first, and all that stands below it, each
once. The walk up from a class ends at one without a super class, and dispatch finds the first
method on its way that is not abstract. So a virtual or interface call may reach just the methods
that the subtypes of the declared class inherit, and no call that dispatches reaches an abstract
method. -/
theorem hierarchy_resolves {d : Declarations} (hb : d.Built) (h : d.build = .ok p) :
    (∀ c, p.HasClass c →
      (∃ k, ∀ fuel ≥ k,
        iterate (Search.step p.directlyBelow) fuel ⟨[c], [c]⟩ = some ⟨p.subtypes c, []⟩) ∧
      (p.subtypes c).head? = some c ∧ (p.subtypes c).Nodup ∧
      ∀ k, k ∈ p.subtypes c ↔ ReflTransGen p.DirectlyBelow c k) ∧
    (∀ c, p.HasClass c →
      (∃ chain, p.IsSuperChain c chain ∧ ∀ n ≥ p.classes.size, p.superChain n c = chain) ∧
      ∀ s m, p.dispatch? c s = some m ↔ p.Inherits c s m) ∧
    ∀ site call, p.callAt? site = some call →
      (call.kind = .virtual ∨ call.kind = .interface → ∀ m, m ∈ p.resolve site ↔
        ∃ k, ReflTransGen p.DirectlyBelow call.target.cls k ∧
          p.Inherits k call.target.subsignature m) ∧
      (call.kind ≠ .static → ∀ m,
        (m ∈ p.resolve site ∨ ∃ receiver, p.resolveOn? receiver site = some m) →
          ∃ x, p.method? m = some x ∧ x.isAbstract = false) := by
  have hp := valid_of_build hb h
  have hd : p.Built := by
    obtain ⟨-, -, rfl⟩ := build_ok h
    exact hb
  refine ⟨fun c hc => ?_, fun c hc => ⟨?_, fun s m => hd.dispatch?_eq_some_iff hc⟩,
    fun site call hcall => ⟨fun hkind m => hp.mem_resolve_iff hd hcall hkind, ?_⟩⟩
  · have hl := hp.encloses_classIds hd hc
    have hlen := (length_classIds (p := p)).le
    exact ⟨⟨_, fun fuel hf => iterate_search hl hlen hf⟩, head?_breadthFirst hl hlen,
      nodup_breadthFirst hl hlen, fun k => hp.mem_subtypes hd hc⟩
  · have hchain := hd.isSuperChain hc
    exact ⟨_, hchain, fun n hn =>
      (hd.isSuperChain (Nat.lt_of_lt_of_le hc hn)).unique hchain⟩
  · rintro hkind m (hm | ⟨receiver, hm⟩)
    · obtain ⟨call', hcall', hm⟩ := mem_resolve.1 hm
      obtain rfl := Option.some.inj (hcall.symm.trans hcall')
      rcases mem_targets.1 hm with ⟨-, hm⟩ | ⟨-, k, -, hm⟩
      · exact hp.isAbstract_of_calleeOn? hkind hm
      · exact hp.isAbstract_of_calleeOn? hkind hm
    · rw [resolveOn?, hcall] at hm
      exact hp.isAbstract_of_calleeOn? hkind hm

/-- A class implements an interface in three ways, does so with a method from above, and has a
subclass that declares the method again, as an abstract one. -/
theorem hierarchy_resolves_diamond : ∃ (d : Declarations) (p : Program), d.Built ∧
    d.build = .ok p ∧ p.subtypes ⟨0⟩ = [⟨0⟩, ⟨3⟩, ⟨1⟩, ⟨4⟩, ⟨5⟩] ∧
    (∀ k, k ∈ p.subtypes ⟨0⟩ ↔ ReflTransGen p.DirectlyBelow ⟨0⟩ k) ∧
    p.Inherits ⟨4⟩ ⟨"void m()"⟩ ⟨0⟩ ∧ p.resolve ⟨⟨4⟩, 0⟩ = [⟨0⟩, ⟨3⟩] ∧
    ∀ m, m ∈ p.resolve ⟨⟨4⟩, 0⟩ ↔ ∃ k, ReflTransGen p.DirectlyBelow ⟨0⟩ k ∧
      p.Inherits k ⟨"void m()"⟩ m := by
  let calls : List Builder.Call := [
    .addInterface "I" [], .addInterface "J" [⟨0⟩], .addClass "A" none [],
    .addClass "B" (some ⟨2⟩) [⟨1⟩, ⟨1⟩, ⟨0⟩], .addClass "C" (some ⟨3⟩) [],
    .addClass "D" (some ⟨4⟩) [], .addMethod ⟨2⟩ "m" [] .void false,
    .addAbstractMethod ⟨0⟩ "m" [] .void, .addAbstractMethod ⟨4⟩ "m" [] .void,
    .addMethod ⟨5⟩ "m" [] .void false, .addMethod ⟨2⟩ "main" [] .void true,
    .addVar ⟨4⟩ "x" (.cls ⟨0⟩),
    .addStmt ⟨4⟩ (.invoke none ⟨.interface, ⟨⟨0⟩, ⟨"void m()"⟩⟩, some ⟨2⟩, []⟩)]
  have hcalls : Builder.Admissible ∅ calls := by decide +kernel
  have hbuilt := (Builder.sound_run hcalls).built
  have hbuild : (Builder.run calls).build.toBool = true := by decide +kernel
  cases hp : (Builder.run calls).build with
  | error e => rw [hp] at hbuild; cases hbuild
  | ok p =>
    obtain ⟨hbelow, hdispatch, hsites⟩ := hierarchy_resolves hbuilt hp
    obtain ⟨-, -, rfl⟩ := build_ok hp
    obtain ⟨-, -, -, hmem⟩ := hbelow ⟨0⟩ (by decide +kernel)
    have hinherits := ((hdispatch ⟨4⟩ (by decide +kernel)).2 ⟨"void m()"⟩ ⟨0⟩).1
      (by decide +kernel)
    obtain ⟨hresolve, -⟩ := hsites ⟨⟨4⟩, 0⟩
      ⟨.interface, ⟨⟨0⟩, ⟨"void m()"⟩⟩, some ⟨2⟩, []⟩ (by decide +kernel)
    exact ⟨_, _, hbuilt, hp, by decide +kernel, hmem, hinherits, by decide +kernel,
      hresolve (.inr rfl)⟩

end ObjectFlow.Program
