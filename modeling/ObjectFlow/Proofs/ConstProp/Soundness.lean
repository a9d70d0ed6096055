import ObjectFlow.Proofs.ConstProp.Execution
import ObjectFlow.Proofs.ConstProp.Lattice
import ObjectFlow.Proofs.Dataflow.Ending
import ObjectFlow.Proofs.Program.Edges

/-!
# Soundness of constant propagation

`Fact.Covers f S`: no value of `f` excludes the number that the store `S` holds. Transfer functions
keep this (`covers_transfer`): a quotient is `undef` only where the division stops the run, whatever
the dividend. As all nodes are settled where a solver ends, the facts cover every run
(`covers_of_arrives`), although transfer functions are not monotone.
-/

namespace ObjectFlow.ConstProp

open Dataflow

/-- The value does not exclude the number. -/
def Value.Covers (x : Value) (c : Int64) : Prop := x = .nac ∨ x = .constant c

theorem Value.Covers.mono {x y : Value} {c : Int64} (h : x.Covers c) (hxy : x ≤ y) :
    y.Covers c := by
  rcases h with rfl | rfl
  · exact .inl (le_antisymm (Value.le_nac y) hxy)
  · rcases hxy with h | rfl | rfl
    · cases h
    · exact .inr rfl
    · exact .inl rfl

/-- The fact excludes nothing that the store holds. -/
def Fact.Covers (f : Fact) (S : Store) : Prop := ∀ v x, S v = some x → (f.get v).Covers x

theorem Fact.Covers.mono {f g : Fact} {S : Store} (h : f.Covers S) (hfg : f ≤ g) : g.Covers S :=
  fun v x hx => (h v x hx).mono (hfg v)

/-! ## Transfer functions -/

/-- An operation that does not fail has a value that its operands do not exclude. -/
theorem covers_evalOp {op : BinaryOp} {x y : Value} {c d : Int64} (hx : x.Covers c)
    (hy : y.Covers d) (hd : op.divides → d ≠ 0) : (evalOp op x y).Covers (op.eval c d) := by
  unfold evalOp
  rw [if_neg]
  · rcases hx with rfl | rfl
    · exact .inl rfl
    · rcases hy with rfl | rfl
      · exact .inl rfl
      · exact .inr rfl
  · rintro ⟨hdiv, rfl⟩
    rcases hy with h | h
    · cases h
    · exact hd hdiv (Value.constant.inj h).symm

/-- An operation with an operand that may be anything may have any value, unless it fails. -/
theorem evalOp_eq_nac {op : BinaryOp} {x y : Value} (h : x = .nac ∨ y = .nac)
    (hd : op.divides → y ≠ .constant 0) : evalOp op x y = .nac := by
  unfold evalOp
  rw [if_neg fun hy => hd hy.1 hy.2]
  rcases h with rfl | rfl
  · rfl
  · cases x <;> rfl

section
variable {holdsInt : VarId → Bool} {f : Fact} {S T : Store} {b : Body}

theorem evalVar_of_holdsInt {v : VarId} (h : holdsInt v) : evalVar holdsInt f v = f.get v :=
  if_pos h

theorem evalVar_of_not {v : VarId} (h : holdsInt v = false) : evalVar holdsInt f v = .nac := by
  rw [evalVar, h]
  rfl

/-- Expressions that are not followed may have any value. -/
theorem eval_of_not_followed {v : VarId} {e : Exp} (hf : f.Covers S)
    (hready : Ready holdsInt S (.assign v e)) (hr : Followed holdsInt e = false) :
    eval holdsInt f e = .nac := by
  cases e with
  | var v => exact evalVar_of_not hr
  | literal l =>
    cases l with
    | int n => cases hr
    | null => rfl
    | str s => rfl
  | binary o =>
    rw [Followed, Bool.and_eq_false_iff] at hr
    refine evalOp_eq_nac (hr.imp evalVar_of_not evalVar_of_not) fun hd => ?_
    cases hv : holdsInt o.rhs with
    | false =>
      rw [evalVar_of_not hv]
      exact Value.noConfusion
    | true =>
      rw [evalVar_of_holdsInt hv]
      obtain ⟨x, hx⟩ := hready.reads o.rhs (by simp [Instr.uses, Exp.uses]) hv
      rcases hf o.rhs x hx with h | h
      · rw [h]
        exact Value.noConfusion
      · rw [h]
        intro h0
        exact hready.divisor o rfl hd (hx.trans (congrArg some (Value.constant.inj h0)))
  | neg v => rfl
  | length v => rfl
  | new ty => rfl
  | cast ty v => rfl
  | instanceOf v ty => rfl
  | field access => rfl
  | element access => rfl

/-- The value of an expression covers what the expression yields. -/
theorem covers_eval {v : VarId} {e : Exp} {x : Int64} (hf : f.Covers S)
    (hready : Ready holdsInt S (.assign v e)) (hy : Yields holdsInt S e x) :
    (eval holdsInt f e).Covers x := by
  cases hy with
  | @var w x hv hx =>
    rw [eval, evalVar_of_holdsInt hv]
    exact hf w x hx
  | int => exact .inr rfl
  | @binary o x y hl hr hx hy =>
    rw [eval, evalBinary, evalVar_of_holdsInt hl, evalVar_of_holdsInt hr]
    refine covers_evalOp (hf _ x hx) (hf _ y hy) fun hd h0 => hready.divisor o rfl hd ?_
    rw [hy, h0]
  | unknown hr => exact .inl (eval_of_not_followed hf hready hr)

/-- Instructions keep what facts cover. -/
theorem covers_transferInstr {i : Instr} (hf : f.Covers S) (h : Executes holdsInt S i T) :
    (transferInstr holdsInt i f).Covers T := by
  cases h with
  | keep _ hdef =>
    unfold transferInstr
    split
    · exact hf
    · rename_i v hv
      rw [hdef v hv]
      exact hf
  | @set v x hready hdef hv hrhs =>
    simp only [transferInstr, hdef, hv, if_true]
    intro w y hy
    rw [Fact.get_set]
    by_cases hvw : v = w
    · subst hvw
      rw [Function.update_self, Option.some.injEq] at hy
      subst hy
      rw [if_pos rfl]
      split
      · rename_i rhs he
        cases i with
        | assign lhs e =>
          cases he
          exact covers_eval hf hready (hrhs _ rfl)
        | _ => cases he
      · exact .inl rfl
    · rw [if_neg hvw]
      rw [Function.update_of_ne (Ne.symm hvw)] at hy
      exact hf w y hy

/-- Nodes keep what facts cover. -/
theorem covers_transfer {n : Cfg.Node} (hf : f.Covers S) (h : Passes holdsInt b n S T) :
    (transfer holdsInt b n f).Covers T := by
  unfold Passes at h
  unfold transfer
  split
  · rename_i s hs
    rw [hs] at h
    exact covers_transferInstr hf h
  · rename_i hn
    rw [hn] at h
    exact h ▸ hf

/-! ## Runs -/

theorem get_boundary {v : VarId} (hv : v ∈ b.params) (hi : holdsInt v) :
    (boundary holdsInt b).get v = .nac := by
  have hmem : v ∈ b.params.filter holdsInt := List.mem_filter.2 ⟨hv, hi⟩
  unfold boundary
  generalize b.params.filter holdsInt = l at hmem
  suffices h : ∀ f : Fact, v ∈ l ∨ f.get v = .nac →
      (l.foldl (fun f p => f.set p .nac) f).get v = .nac from h ∅ (.inl hmem)
  clear hmem
  induction l with
  | nil => exact fun f h => h.resolve_left List.not_mem_nil
  | cons p l ih =>
    intro f h
    rw [List.foldl_cons]
    refine ih _ ?_
    rw [Fact.get_set]
    by_cases hp : p = v
    · exact .inr (if_pos hp)
    · rw [if_neg hp]
      exact h.imp_left fun h => (List.mem_cons.1 h).resolve_left (Ne.symm hp)

/-- Where all nodes are settled, the facts cover every run: one step of a run leads from the output
of a node to the input of the next. -/
theorem covers_of_arrives {s : State Cfg.Node Fact} {n : Cfg.Node}
    (hf : s.Fits (analysis holdsInt b) (Cfg.ofBody b).flow)
    (hs : ∀ n ∈ (Cfg.ofBody b).nodes, n ≠ .entry →
      s.Settled (analysis holdsInt b) (Cfg.ofBody b).flow n)
    (h : Arrives holdsInt b n S) : ∃ f g, s.inputs[n]? = some f ∧ s.outputs[n]? = some g ∧
      f.Covers S ∧ ∀ T, Passes holdsInt b n S T → g.Covers T := by
  induction h with
  | @entry S hS =>
    obtain ⟨hi, ho⟩ := hf.start List.mem_cons_self
    have hcov : (boundary holdsInt b).Covers S := by
      intro v x hx
      obtain ⟨hv, hv'⟩ := (hS v).1 ⟨x, hx⟩
      exact .inl (get_boundary hv hv')
    exact ⟨_, _, hi, ho, hcov, fun T hT => hT ▸ hcov⟩
  | @step m n S T hm hpass hn ih =>
    obtain ⟨f, g, -, hg, -, hout⟩ := ih
    obtain ⟨e, he, -, ht⟩ := Cfg.mem_succs.1 hn
    obtain ⟨hnodes, -⟩ := Cfg.edge_cases he
    have hpred : m ∈ (Cfg.ofBody b).preds n := Cfg.mem_preds_iff.2 hn
    have hne : n ≠ .entry := by
      rintro rfl
      rw [Cfg.preds_entry] at hpred
      cases hpred
    obtain ⟨x, hx, hy, hle⟩ := hs n (ht ▸ hnodes) hne
    have hcov : x.Covers T := (hout T hpass).mono (hle m hpred g hg)
    exact ⟨x, _, hx, hy, hcov, fun U hU => covers_transfer hcov hU⟩

/-- Wherever a solver ends, its facts cover every run: whatever a variable holds when a run arrives
at a node, the fact before the node says that it is a constant only if it is this one, and the fact
after the node says so of what the variable holds then. -/
theorem constants_cover_runs {kind : SolverKind} {r : Solution Cfg.Node Fact} {n : Cfg.Node}
    (hr : Ends kind (analysis holdsInt b) (Cfg.ofBody b).flow r) (h : Arrives holdsInt b n S) :
    (∃ f, r.inFacts[n]? = some f ∧ f.Covers S) ∧
      ∀ T, Passes holdsInt b n S T → ∃ g, r.outFacts[n]? = some g ∧ g.Covers T := by
  obtain ⟨s, rfl, hf, hs⟩ := hr.settled (Cfg.rooted _) (joins holdsInt b)
  obtain ⟨f, g, hi, ho, hin, hout⟩ := covers_of_arrives hf hs h
  exact ⟨⟨f, hi, hin⟩, fun T hT => ⟨g, ho, hout T hT⟩⟩

end

/-- A body that divides its parameter by itself, run with the number seven. -/
theorem constants_cover_runs_quotient : ∃ (b : Body) (r : Solution Cfg.Node Fact) (S : Store),
    Ends .sweep (analysis (fun _ => true) b) (Cfg.ofBody b).flow r ∧
      Arrives (fun _ => true) b .exit S ∧ S ⟨1⟩ = some 1 ∧
      ∃ f, r.inFacts[Cfg.Node.exit]? = some f ∧ f.Covers S := by
  let b : Body := {
    params := [⟨0⟩]
    stmts := [⟨0, .assign ⟨1⟩ (.binary ⟨.arithmetic .div, ⟨0⟩, ⟨0⟩⟩)⟩] }
  let S : Store := fun v => if v = ⟨0⟩ then some 7 else none
  have hsolve : (solve .sweep (analysis (fun _ => true) b) (Cfg.ofBody b).flow).isSome := by
    decide +kernel
  obtain ⟨r, hr⟩ := Option.isSome_iff_exists.1 hsolve
  have h1 : Arrives (fun _ => true) b .entry S := .entry fun v => by
    by_cases hv : v = ⟨0⟩ <;> simp [S, b, hv]
  have h2 : Arrives (fun _ => true) b (.stmt 0) S := .step h1 rfl (by decide)
  have hready : Ready (fun _ => true) S (.assign ⟨1⟩ (.binary ⟨.arithmetic .div, ⟨0⟩, ⟨0⟩⟩)) :=
    ⟨by simp [Instr.uses, Exp.uses, S], by simp [Instr.rhs?, S]⟩
  have hyields : Yields (fun _ => true) S (.binary ⟨.arithmetic .div, ⟨0⟩, ⟨0⟩⟩) 1 :=
    .binary (x := 7) (y := 7) rfl rfl rfl rfl
  have h3 : Arrives (fun _ => true) b .exit (Function.update S ⟨1⟩ (some 1)) :=
    .step h2 (.set hready rfl rfl fun rhs h => Option.some.inj h ▸ hyields) (by decide)
  exact ⟨b, r, _, ends_of_solve hr, h3, by simp, (constants_cover_runs (ends_of_solve hr) h3).1⟩

end ObjectFlow.ConstProp
