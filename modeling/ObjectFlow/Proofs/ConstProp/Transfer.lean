import Mathlib.Algebra.Order.BigOperators.Group.Finset
import ObjectFlow.Proofs.ConstProp.Soundness

/-!
# Transfer functions of constant propagation

Facts that arise give values to tracked variables only, and each value rises at most twice, so the
analysis is `ranked` and its work list always becomes empty (`exists_workList`). A transfer function
keeps the order of two facts unless a divisor rises to zero between them (`transfer_le_iff`), as it
can do in a `Quotient` only: there a value that rises, from `undef` to zero, can lower another.
-/

namespace ObjectFlow.ConstProp

open Dataflow
open Finset

variable {holdsInt : VarId → Bool} {b : Body} {f g : Fact} {n : Cfg.Node} {i : Instr} {v : VarId}

/-! ## Tracked variables -/

theorem get_boundary_of_not_mem (hv : v ∉ tracked holdsInt b) :
    (boundary holdsInt b).get v = .undef := by
  have hmem : v ∉ b.params.filter holdsInt := fun h => hv <| by
    rw [tracked, List.filter_append]
    exact List.mem_append_left _ h
  unfold boundary
  generalize b.params.filter holdsInt = l at hmem
  suffices h : ∀ f : Fact, f.get v = .undef →
      (l.foldl (fun f p => f.set p .nac) f).get v = .undef from h ∅ (Fact.get_empty v)
  induction l with
  | nil => exact fun f h => h
  | cons p l ih =>
    rw [List.mem_cons, not_or] at hmem
    intro f h
    rw [List.foldl_cons]
    refine ih hmem.2 _ ?_
    rw [Fact.get_set, if_neg (Ne.symm hmem.1), h]

/-- An instruction changes the value of the variable that it assigns only. -/
theorem get_transferInstr_of_ne (hv : i.def? ≠ some v) :
    (transferInstr holdsInt i f).get v = f.get v := by
  unfold transferInstr
  split
  · rfl
  · rename_i w hw
    split
    · rw [Fact.get_set, if_neg]
      rintro rfl
      exact hv hw
    · rfl

theorem get_transferInstr_of_not (hv : holdsInt v = false) :
    (transferInstr holdsInt i f).get v = f.get v := by
  unfold transferInstr
  split
  · rfl
  · split
    · rename_i w _ hw
      rw [Fact.get_set, if_neg]
      rintro rfl
      rw [hw] at hv
      cases hv
    · rfl

/-- The variables that are not tracked have no value in any fact that arises. -/
theorem get_eq_undef (h : (analysis holdsInt b).Arises (Cfg.ofBody b).flow f)
    (hv : v ∉ tracked holdsInt b) : f.get v = .undef := by
  induction h with
  | boundary => exact get_boundary_of_not_mem hv
  | initial => exact Fact.get_empty v
  | @meet f g _ _ hf hg =>
    show (f.meet g).get v = .undef
    rw [Fact.get_meet, hf, hg, Value.undef_meet]
  | @transfer n f _ _ hf =>
    show (transfer holdsInt b n f).get v = .undef
    unfold transfer
    split
    · rename_i s hs
      cases hi : holdsInt v with
      | false => rw [get_transferInstr_of_not hi, hf]
      | true =>
        rw [get_transferInstr_of_ne, hf]
        intro hdef
        refine hv (List.mem_filter.2 ⟨List.mem_append_right _ ?_, hi⟩)
        exact List.mem_filterMap.2 ⟨s, Body.mem_stmts_of_at? hs, hdef⟩
    · exact hf

/-! ## Rank -/

/-- How far a value has risen. -/
def Value.rank : Value → ℕ
  | undef => 0
  | constant _ => 1
  | nac => 2

theorem Value.rank_le_two (x : Value) : x.rank ≤ 2 := by
  cases x <;> simp [rank]

theorem Value.rank_lt {x y : Value} (h : x < y) : x.rank < y.rank := by
  obtain ⟨hle, hne⟩ := lt_iff_le_and_ne.1 h
  rcases hle with rfl | rfl | rfl
  · cases y with
    | undef => exact absurd rfl hne
    | constant c => exact Nat.zero_lt_one
    | nac => exact Nat.zero_lt_two
  · exact absurd rfl hne
  · cases x with
    | undef => exact Nat.zero_lt_two
    | constant c => exact Nat.one_lt_two
    | nac => exact absurd rfl hne

/-- How far a fact has risen. -/
def Fact.rank (holdsInt : VarId → Bool) (b : Body) (f : Fact) : ℕ :=
  ∑ v ∈ (tracked holdsInt b).toFinset, (f.get v).rank

/-- The values of tracked variables tell how far a fact has risen. -/
theorem ranked (holdsInt : VarId → Bool) (b : Body) :
    Ranked (analysis holdsInt b) (Cfg.ofBody b).flow (Fact.rank holdsInt b) where
  le f _ := by
    have hsum : f.rank holdsInt b ≤ #(tracked holdsInt b).toFinset * 2 :=
      sum_le_card_nsmul _ _ _ fun v _ => (f.get v).rank_le_two
    have hcard := (tracked holdsInt b).toFinset_card_le
    show f.rank holdsInt b ≤ 65 * (tracked holdsInt b).length
    omega
  lt f g _ hg hfg := by
    obtain ⟨hle, hnot⟩ := lt_iff_le_not_ge.1 hfg
    obtain ⟨v, hv⟩ := not_forall.1 hnot
    refine sum_lt_sum (fun w _ => ?_) ⟨v, ?_, Value.rank_lt (lt_of_le_not_ge (hle v) hv)⟩
    · rcases (hle w).eq_or_lt with he | hlt
      · rw [he]
      · exact (Value.rank_lt hlt).le
    · rw [List.mem_toFinset]
      by_contra htracked
      exact hv (.inl (get_eq_undef hg htracked))

/-- The work list of constant propagation becomes empty, whatever the body divides by. -/
theorem exists_workList (holdsInt : VarId → Bool) (b : Body) :
    ∃ r, solve .workList (analysis holdsInt b) (Cfg.ofBody b).flow = some r := by
  obtain ⟨s, hs⟩ :=
    WorkList.exists_end_of_ranked (joins holdsInt b) (Cfg.rooted _).unentered (ranked holdsInt b)
  exact ⟨_, congrArg (Option.map _) hs⟩

/-! ## Monotony -/

theorem Fact.le_set {x : Value} (h : f.get v ≤ x) : f ≤ f.set v x := by
  intro w
  rw [Fact.get_set f]
  split
  · rename_i hw
    rw [← hw]
    exact h
  · exact le_rfl

theorem monotone_evalVar (v : VarId) : Monotone fun f => evalVar holdsInt f v := by
  intro f g h
  show evalVar holdsInt f v ≤ evalVar holdsInt g v
  unfold evalVar
  split
  · exact h v
  · exact le_rfl

/-- An operand without a value leaves an operation without one, unless the other may be anything. -/
theorem evalOp_eq_undef {op : BinaryOp} {x y : Value}
    (h : x = .undef ∧ y ≠ .nac ∨ y = .undef ∧ x ≠ .nac) : evalOp op x y = .undef := by
  unfold evalOp
  split
  · rfl
  · rcases h with ⟨rfl, hy⟩ | ⟨rfl, hx⟩
    · cases y with
      | nac => exact absurd rfl hy
      | _ => rfl
    · cases x with
      | nac => exact absurd rfl hx
      | _ => rfl

/-- Operations are monotone but for one case: a divisor rises to zero while the dividend may be
anything. -/
theorem evalOp_le_evalOp_iff {op : BinaryOp} {x x' y y' : Value} (hx : x ≤ x') (hy : y ≤ y') :
    evalOp op x y ≤ evalOp op x' y' ↔
      ¬ (op.divides ∧ x = .nac ∧ y = .undef ∧ y' = .constant 0) := by
  constructor
  · rintro hle ⟨hdiv, rfl, rfl, rfl⟩
    have hhigh : evalOp op x' (.constant 0) = .undef := if_pos ⟨hdiv, rfl⟩
    rw [evalOp_eq_nac (.inl rfl) (by simp), hhigh] at hle
    rcases hle with h | h | h <;> cases h
  intro hop
  by_cases hz : op.divides ∧ y' = .constant 0
  · obtain ⟨hdiv, rfl⟩ := hz
    refine .inl ?_
    rcases hy with rfl | rfl | h
    · exact evalOp_eq_undef (.inr ⟨rfl, fun hnac => hop ⟨hdiv, hnac, rfl, rfl⟩⟩)
    · exact if_pos ⟨hdiv, rfl⟩
    · cases h
  by_cases hnac : x' = .nac ∨ y' = .nac
  · rw [evalOp_eq_nac hnac fun hdiv h0 => hz ⟨hdiv, h0⟩]
    exact Value.le_nac _
  obtain ⟨hx', hy'⟩ := not_or.1 hnac
  rcases hx with rfl | rfl | h
  · refine .inl (evalOp_eq_undef (.inl ⟨rfl, ?_⟩))
    rintro rfl
    exact hy' (le_antisymm (Value.le_nac y') hy)
  · rcases hy with rfl | rfl | h
    · exact .inl (evalOp_eq_undef (.inr ⟨rfl, hx'⟩))
    · exact le_rfl
    · exact absurd h hy'
  · exact absurd h hx'

/-- From one fact to another, a divisor rises to zero while the dividend may be anything. -/
def DivisorRises (holdsInt : VarId → Bool) (e : BinaryExp) (f g : Fact) : Prop :=
  e.op.divides ∧ evalVar holdsInt f e.lhs = .nac ∧ evalVar holdsInt f e.rhs = .undef ∧
    evalVar holdsInt g e.rhs = .constant 0

theorem evalBinary_le_evalBinary_iff {e : BinaryExp} (h : f ≤ g) :
    evalBinary holdsInt f e ≤ evalBinary holdsInt g e ↔ ¬ DivisorRises holdsInt e f g :=
  evalOp_le_evalOp_iff (monotone_evalVar e.lhs h) (monotone_evalVar e.rhs h)

theorem eval_le_eval {e : Exp} (h : f ≤ g)
    (he : ∀ o, e = .binary o → ¬ DivisorRises holdsInt o f g) :
    eval holdsInt f e ≤ eval holdsInt g e := by
  cases e with
  | var v => exact monotone_evalVar v h
  | binary o => exact (evalBinary_le_evalBinary_iff h).2 (he o rfl)
  | literal l => cases l <;> exact le_rfl
  | neg v => exact le_rfl
  | length v => exact le_rfl
  | new ty => exact le_rfl
  | cast ty v => exact le_rfl
  | instanceOf v ty => exact le_rfl
  | field access => exact le_rfl
  | element access => exact le_rfl

/-- The instruction assigns a followed variable a quotient or a remainder whose divisor rises to
zero while the dividend may be anything. -/
def Falls (holdsInt : VarId → Bool) (i : Instr) (f g : Fact) : Prop :=
  ∃ v e, i = .assign v (.binary e) ∧ holdsInt v ∧ DivisorRises holdsInt e f g

/-- An instruction keeps two facts in their order unless it `Falls` between them. -/
theorem transferInstr_le_iff (h : f ≤ g) :
    transferInstr holdsInt i f ≤ transferInstr holdsInt i g ↔ ¬ Falls holdsInt i f g := by
  constructor
  · rintro hle ⟨v, e, rfl, hv, hrises⟩
    have hval := hle v
    simp only [transferInstr, Instr.def?, Instr.rhs?, hv, if_true, Fact.get_set] at hval
    exact (evalBinary_le_evalBinary_iff h).1 hval hrises
  · intro hfalls w
    by_cases hw : i.def? = some w
    · cases hv : holdsInt w with
      | false =>
        rw [get_transferInstr_of_not hv, get_transferInstr_of_not hv]
        exact h w
      | true =>
        simp only [transferInstr, hw, hv, if_true, Fact.get_set]
        cases hr : i.rhs? with
        | none => exact le_rfl
        | some e =>
          refine eval_le_eval h fun o ho hrises => hfalls ⟨w, o, ?_, hv, hrises⟩
          cases i with
          | assign v e' =>
            cases hw
            cases hr
            rw [ho]
          | _ => cases hr
    · rw [get_transferInstr_of_ne hw, get_transferInstr_of_ne hw]
      exact h w

/-- The instruction assigns a followed variable a quotient or a remainder of two variables, of which
the divisor is followed. -/
def Quotient (holdsInt : VarId → Bool) (i : Instr) : Prop :=
  ∃ v e, i = .assign v (.binary e) ∧ holdsInt v ∧ e.op.divides ∧ holdsInt e.rhs ∧ e.lhs ≠ e.rhs

theorem Falls.quotient (h : Falls holdsInt i f g) : Quotient holdsInt i := by
  obtain ⟨v, e, rfl, hv, hdiv, hx, hy, -⟩ := h
  refine ⟨v, e, rfl, hv, hdiv, ?_, fun heq => ?_⟩
  · cases hr : holdsInt e.rhs with
    | true => rfl
    | false =>
      rw [evalVar_of_not hr] at hy
      cases hy
  · rw [heq, hy] at hx
    cases hx

/-- A quotient falls where the dividend has any value and the divisor none, which then rises. -/
theorem Quotient.falls (hi : Quotient holdsInt i) : ∃ f g : Fact, f ≤ g ∧ Falls holdsInt i f g := by
  obtain ⟨v, e, rfl, hv, hdiv, hr, hne⟩ := hi
  let f : Fact := (∅ : Fact).set e.lhs .nac
  have hrhs : f.get e.rhs = .undef := by rw [Fact.get_set, if_neg hne, Fact.get_empty]
  refine ⟨f, f.set e.rhs (.constant 0), Fact.le_set (.inl hrhs), v, e, rfl, hv, hdiv, ?_, ?_, ?_⟩
  · unfold evalVar
    split
    · rw [Fact.get_set, if_pos rfl]
    · rfl
  · rw [evalVar_of_holdsInt hr, hrhs]
  · rw [evalVar_of_holdsInt hr, Fact.get_set f, if_pos rfl]

/-- A node keeps two facts in their order unless its instruction `Falls` between them. -/
theorem transfer_le_iff (h : f ≤ g) : transfer holdsInt b n f ≤ transfer holdsInt b n g ↔
    ∀ s, b.at? n = some s → ¬ Falls holdsInt s.instr f g := by
  unfold transfer
  split
  · rename_i s hs
    rw [transferInstr_le_iff h]
    refine ⟨fun hfalls t ht => ?_, fun hall => hall s hs⟩
    obtain rfl := Option.some.inj (hs.symm.trans ht)
    exact hfalls
  · rename_i hnone
    exact iff_of_true h fun s hs => by simp [hnone] at hs

/-- The transfer functions that are not monotone are those of quotients. -/
theorem monotone_transfer_iff : Monotone (transfer holdsInt b n) ↔
    ∀ s, b.at? n = some s → ¬ Quotient holdsInt s.instr := by
  refine ⟨fun hmono s hs hquotient => ?_, fun hall f g h => ?_⟩
  · obtain ⟨f, g, h, hfalls⟩ := hquotient.falls
    exact (transfer_le_iff h).1 (hmono h) s hs hfalls
  · exact (transfer_le_iff h).2 fun s hs hfalls => hall s hs hfalls.quotient

/-- A body without quotients has monotone transfer functions. -/
theorem monotone_transfer (hb : ∀ s ∈ b.stmts, ¬ Quotient holdsInt s.instr) (n : Cfg.Node) :
    Monotone (transfer holdsInt b n) :=
  monotone_transfer_iff.2 fun s hs => hb s (Body.mem_stmts_of_at? hs)

end ObjectFlow.ConstProp
