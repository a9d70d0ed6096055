import Mathlib.Data.List.Nodup
import ObjectFlow.Program.Hierarchy
import ObjectFlow.Proofs.Program.Built

/-!
# Sites of built programs

`Program.Valid p`: the bodies of `p` are well formed and its indices are those of its statements, as
is the case for every built program (`valid_of_build`). Then a statement of a method is the one at
its site (`WellFormed.instrAt?_iff`), and the sites listed for a variable and a role are those whose
statements use the variable in that role (`Valid.mem_usesAs`).
-/

namespace ObjectFlow

open Std

theorem EntityId.mem_below {e : Entity} {n : Nat} {i : EntityId e} :
    i ∈ (EntityId.below n : List (EntityId e)) ↔ i.index < n := by
  simp only [EntityId.below, List.mem_map, List.mem_range]
  constructor
  · rintro ⟨k, hk, rfl⟩
    exact hk
  · exact fun h => ⟨i.index, h, rfl⟩

/-- Ids are listed ascending. -/
theorem EntityId.pairwise_below {e : Entity} (n : Nat) :
    (EntityId.below n : List (EntityId e)).Pairwise fun i k => i.index < k.index :=
  List.pairwise_map.2 List.pairwise_lt_range

theorem EntityId.nodup_below {e : Entity} (n : Nat) : (EntityId.below n : List (EntityId e)).Nodup :=
  (EntityId.pairwise_below n).imp fun hlt he => Nat.ne_of_lt hlt (congrArg EntityId.index he)

namespace Declarations

variable {d : Declarations} {m : MethodId} {site : Site} {instr : Instr}

theorem mem_methodIds : m ∈ d.methodIds ↔ d.HasMethod m := EntityId.mem_below

theorem mem_stmtsOf : (site, instr) ∈ d.stmtsOf m ↔
    ∃ b s, d.body? m = some b ∧ s ∈ b.stmts ∧ site = ⟨m, s.index⟩ ∧ instr = s.instr := by
  unfold stmtsOf
  cases hb : d.body? m with
  | none => simp
  | some b =>
    simp only [List.mem_map, Prod.mk.injEq, Option.some.injEq]
    constructor
    · rintro ⟨s, hs, h1, h2⟩
      exact ⟨b, s, rfl, hs, h1.symm, h2.symm⟩
    · rintro ⟨b', s, rfl, hs, h1, h2⟩
      exact ⟨s, hs, h1.symm, h2.symm⟩

theorem site_method (h : (site, instr) ∈ d.stmtsOf m) : site.method = m := by
  obtain ⟨b, s, -, -, rfl, -⟩ := mem_stmtsOf.1 h
  rfl

theorem mem_allStmts : (site, instr) ∈ d.allStmts ↔ (site, instr) ∈ d.stmtsOf site.method := by
  simp only [allStmts, List.mem_flatMap]
  constructor
  · rintro ⟨m, -, h⟩
    rwa [site_method h]
  · intro h
    obtain ⟨b, s, hb, -⟩ := mem_stmtsOf.1 h
    exact ⟨site.method, mem_methodIds.2 (body?_lt hb), h⟩

/-- The instruction at a site. -/
def instrAt? (d : Declarations) (site : Site) : Option Instr :=
  (d.stmtAt? site).map Stmt.instr

/-- The statements of a method are those at its sites. -/
theorem WellFormed.instrAt?_iff (h : d.WellFormed) :
    d.instrAt? site = some instr ↔ (site, instr) ∈ d.stmtsOf site.method := by
  rw [mem_stmtsOf]
  simp only [instrAt?, stmtAt?, Body.stmt?, Option.map_eq_some_iff, Option.bind_eq_some_iff]
  constructor
  · rintro ⟨s, ⟨b, hb, hs⟩, rfl⟩
    refine ⟨b, s, hb, List.mem_of_getElem? hs, ?_, rfl⟩
    rw [h.indexed hb hs]
  · rintro ⟨b, s, hb, hs, hsite, rfl⟩
    obtain ⟨i, hi⟩ := List.mem_iff_getElem?.1 hs
    refine ⟨s, ⟨b, hb, ?_⟩, rfl⟩
    rw [hsite]
    rwa [h.indexed hb hi]

theorem WellFormed.instrAt? (h : d.WellFormed) (hs : (site, instr) ∈ d.stmtsOf m) :
    d.instrAt? site = some instr :=
  h.instrAt?_iff.2 (site_method hs ▸ hs)

theorem WellFormed.names (h : d.WellFormed) (hs : (site, instr) ∈ d.stmtsOf m) :
    d.Names instr := by
  obtain ⟨b, s, hb, hm, -, rfl⟩ := mem_stmtsOf.1 hs
  exact h.named hb hm

/-- The statements of a method stand at different sites. -/
theorem WellFormed.nodup_stmtsOf (h : d.WellFormed) (m : MethodId) : (d.stmtsOf m).Nodup := by
  unfold stmtsOf
  split
  · rename_i b hb
    have hindex : b.stmts.map Stmt.index = List.range b.stmts.length := by
      refine List.ext_getElem? fun i => ?_
      rw [List.getElem?_map]
      cases hi : b.stmts[i]? with
      | none => simpa using List.getElem?_eq_none_iff.1 hi
      | some s =>
        have hlt := (List.getElem?_eq_some_iff.1 hi).1
        simp [h.indexed hb hi, List.getElem?_range hlt]
    refine List.Nodup.of_map (fun y => y.1.index) ?_
    simp [Function.comp_def, hindex, List.nodup_range]
  · exact List.nodup_nil

/-- So do the statements of different methods. -/
theorem WellFormed.nodup_flatMap_stmtsOf (h : d.WellFormed) {methods : List MethodId}
    (hm : methods.Nodup) : (methods.flatMap d.stmtsOf).Nodup := by
  refine List.nodup_flatMap.2 ⟨fun m _ => h.nodup_stmtsOf m, hm.imp fun {m k} hne => ?_⟩
  rintro ⟨site, i⟩ h1 h2
  exact hne ((site_method h1).symm.trans (site_method h2))

/-- What dispatch finds is a method of some class. -/
theorem WellFormed.dispatch? {c : ClassId} {s : Subsignature} (h : d.WellFormed)
    (hm : d.dispatch? c s = some m) : d.HasMethod m := by
  obtain ⟨k, -, hk⟩ := List.exists_of_findSome?_eq_some hm
  exact h.declared (Option.eq_some_of_filter_eq_some hk)

end Declarations

namespace Program

variable {p : Program}

/-- What the steps of a fold add is what it adds. -/
theorem mem_foldl_of_step {α β : Type} {f : List β → α → List β} {p : α → Prop} {y : β}
    (h : ∀ acc x, y ∈ f acc x ↔ y ∈ acc ∨ p x) (l : List α) (acc : List β) :
    y ∈ l.foldl f acc ↔ y ∈ acc ∨ ∃ x ∈ l, p x := by
  induction l generalizing acc with
  | nil => simp
  | cons x l ih =>
    rw [List.foldl_cons, ih, h, or_assoc]
    simp only [List.mem_cons, exists_eq_or_imp]

/-- The variables that a body returns are those of its return statements. -/
theorem mem_returnVars {b : Body} {v : VarId} :
    v ∈ b.returnVars ↔ ∃ s ∈ b.stmts, s.instr = .ret (some v) := by
  unfold Body.returnVars
  refine (mem_foldl_of_step (p := fun s => s.instr = .ret (some v)) (fun acc s => ?_) b.stmts
    []).trans (by simp)
  split
  · rename_i w hw
    simp only [mem_adjoin, hw, Instr.ret.injEq, Option.some.injEq, eq_comm (a := w)]
  · rename_i hw
    have hn : s.instr ≠ .ret (some v) := fun h => hw v h
    simp [hn]

/-- A program with well-formed bodies and the indices of its own statements. -/
structure Valid (p : Program) : Prop where
  wellFormed : p.toDeclarations.WellFormed
  uses : p.uses = group p.toDeclarations.baseUses
  below : p.below = group p.toDeclarations.subtypePairs

theorem build_ok {d : Declarations} (h : d.build = .ok p) :
    d.checkMain = .ok () ∧ d.checkJumps = .ok () ∧
      p = { d with uses := group d.baseUses, below := group d.subtypePairs } := by
  unfold Declarations.build at h
  cases h1 : d.checkMain with
  | error e => rw [h1] at h; cases h
  | ok u =>
    cases h2 : d.checkJumps with
    | error e => rw [h1, h2] at h; cases h
    | ok u =>
      rw [h1, h2] at h
      exact ⟨rfl, rfl, (Except.ok.inj h).symm⟩

theorem valid_of_build {d : Declarations} (hd : d.Built) (h : d.build = .ok p) : p.Valid := by
  obtain ⟨-, -, rfl⟩ := build_ok h
  exact ⟨hd.wellFormed, rfl, rfl⟩

/-- The index of bases lists the sites at which a variable is a base, by role. -/
theorem Valid.mem_usesAs (h : p.Valid) {v : VarId} {use : BaseUse} {site : Site} :
    site ∈ p.usesAs v use ↔ ∃ instr, p.instrAt? site = some instr ∧
      instr.baseUse? = some (v, use) := by
  rw [usesAs, h.uses, getD_group]
  simp only [List.mem_map, List.mem_filter, decide_eq_true_eq, Declarations.baseUses,
    List.mem_filterMap, Option.map_eq_some_iff]
  constructor
  · rintro ⟨-, ⟨⟨-, ⟨⟨⟨s, instr⟩, hs, ⟨w, u⟩, hu, rfl⟩, hw⟩, rfl⟩, hv⟩, rfl⟩
    simp only at hw hv hu
    subst hw; subst hv
    exact ⟨instr, h.wellFormed.instrAt?_iff.2 (Declarations.mem_allStmts.1 hs), hu⟩
  · rintro ⟨instr, hs, hu⟩
    refine ⟨(use, site), ⟨⟨(v, use, site), ⟨⟨(site, instr), ?_, (v, use), hu, rfl⟩, rfl⟩, rfl⟩,
      rfl⟩, rfl⟩
    exact Declarations.mem_allStmts.2 (h.wellFormed.instrAt?_iff.1 hs)

/-- A base is one of the variables that its statement uses. -/
theorem mem_uses_of_baseUse? {i : Instr} {v : VarId} {use : BaseUse}
    (h : i.baseUse? = some (v, use)) : v ∈ i.uses := by
  unfold Instr.baseUse? at h
  split at h
  case h_5 =>
    obtain ⟨w, hw, heq⟩ := Option.map_eq_some_iff.1 h
    obtain ⟨rfl, -⟩ := Prod.mk.inj heq
    simp [Instr.uses, hw]
  case h_6 => cases h
  all_goals
    cases h
    simp [Instr.uses, Exp.uses, FieldAccess.base?]

theorem Valid.length_usesAs_le (h : p.Valid) (v : VarId) (use : BaseUse) :
    (p.usesAs v use).length ≤ p.allStmts.length := by
  rw [usesAs, h.uses, getD_group, List.length_map]
  refine Nat.le_trans (List.length_filter_le _ _) ?_
  rw [List.length_map]
  exact Nat.le_trans (List.length_filter_le _ _) (List.length_filterMap_le _ _)

/-- The target of a call is a method of the program. -/
theorem Valid.calleeOn? (h : p.Valid) {receiver : Option ClassId} {call : Invoke} {m : MethodId}
    (hm : p.calleeOn? receiver call = some m) : p.HasMethod m := by
  unfold Program.calleeOn? at hm
  split at hm
  · exact h.wellFormed.declared hm
  · exact h.wellFormed.dispatch? hm
  all_goals
    obtain ⟨c, -, hc⟩ := Option.bind_eq_some_iff.1 hm
    exact h.wellFormed.dispatch? hc

end Program

end ObjectFlow
